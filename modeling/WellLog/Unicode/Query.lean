import WellLog.Unicode.Age
import WellLog.Unicode.Break
import WellLog.Unicode.Property
import WellLog.Unicode.Script
/-!
# Sets by name

Names are compared without case, blanks, hyphens, underscores and a leading `is`.  A name alone is a
property that characters have or have not, a general category or a script; a name with a value is a
value of one of the other properties.
-/

namespace WellLog.Unicode

/-- A name without what does not matter in it. -/
def looseName (name : List Char) : String :=
  let plain := (name.filter fun c => c.toNat < 128).filter fun c =>
    c != ' ' && c != '_' && c != '-'
  let lower := plain.map Char.toLower
  let starts := (name.take 2).map Char.toLower == ['i', 's']
  let bare := if starts then lower.drop 2 else lower
  String.ofList (if starts && bare == ['c'] then ['i', 's', 'c'] else bare)

/-- General categories and groups of them. -/
def categories : List NamedSet := [
  ⟨["l", "letter"],
    [.uppercaseLetter, .lowercaseLetter, .titlecaseLetter, .modifierLetter, .otherLetter], ""⟩,
  ⟨["combiningmark", "m", "mark"], [.nonspacingMark, .spacingMark, .enclosingMark], ""⟩,
  ⟨["n", "number"], [.decimalNumber, .letterNumber, .otherNumber], ""⟩,
  ⟨["p", "punct", "punctuation"],
    [.connectorPunctuation, .dashPunctuation, .openPunctuation, .closePunctuation,
    .initialPunctuation, .finalPunctuation, .otherPunctuation], ""⟩,
  ⟨["s", "symbol"], [.mathSymbol, .currencySymbol, .modifierSymbol, .otherSymbol], ""⟩,
  ⟨["separator", "z"], [.spaceSeparator, .lineSeparator, .paragraphSeparator], ""⟩,
  ⟨["c", "other"], [.control, .format, .privateUse, .unassigned], ""⟩,
  ⟨["casedletter", "lc"], [.uppercaseLetter, .lowercaseLetter, .titlecaseLetter], ""⟩,
  ⟨["lu", "uppercaseletter"], [.uppercaseLetter], ""⟩,
  ⟨["ll", "lowercaseletter"], [.lowercaseLetter], ""⟩,
  ⟨["lt", "titlecaseletter"], [.titlecaseLetter], ""⟩,
  ⟨["lm", "modifierletter"], [.modifierLetter], ""⟩,
  ⟨["lo", "otherletter"], [.otherLetter], ""⟩,
  ⟨["mn", "nonspacingmark"], [.nonspacingMark], ""⟩,
  ⟨["mc", "spacingmark"], [.spacingMark], ""⟩,
  ⟨["enclosingmark", "me"], [.enclosingMark], ""⟩,
  ⟨["decimalnumber", "digit", "nd"], [.decimalNumber], ""⟩,
  ⟨["letternumber", "nl"], [.letterNumber], ""⟩,
  ⟨["no", "othernumber"], [.otherNumber], ""⟩,
  ⟨["connectorpunctuation", "pc"], [.connectorPunctuation], ""⟩,
  ⟨["dashpunctuation", "pd"], [.dashPunctuation], ""⟩,
  ⟨["openpunctuation", "ps"], [.openPunctuation], ""⟩,
  ⟨["closepunctuation", "pe"], [.closePunctuation], ""⟩,
  ⟨["initialpunctuation", "pi"], [.initialPunctuation], ""⟩,
  ⟨["finalpunctuation", "pf"], [.finalPunctuation], ""⟩,
  ⟨["otherpunctuation", "po"], [.otherPunctuation], ""⟩,
  ⟨["mathsymbol", "sm"], [.mathSymbol], ""⟩,
  ⟨["currencysymbol", "sc"], [.currencySymbol], ""⟩,
  ⟨["modifiersymbol", "sk"], [.modifierSymbol], ""⟩,
  ⟨["othersymbol", "so"], [.otherSymbol], ""⟩,
  ⟨["spaceseparator", "zs"], [.spaceSeparator], ""⟩,
  ⟨["lineseparator", "zl"], [.lineSeparator], ""⟩,
  ⟨["paragraphseparator", "zp"], [.paragraphSeparator], ""⟩,
  ⟨["cc", "cntrl", "control"], [.control], ""⟩,
  ⟨["cf", "format"], [.format], ""⟩,
  ⟨["co", "privateuse"], [.privateUse], ""⟩,
  ⟨["cn", "unassigned"], [.unassigned], ""⟩]

/-- The characters of a category or of a group of categories. -/
def category? (name : String) : Option CharSet :=
  if name == "any" then some .any
  else if name == "ascii" then some (.range '\x00' '\x7F')
  else if name == "assigned" then some (.compl (Category.set [.unassigned]))
  else NamedSet.find? categories name

/-- The characters of a script. -/
def script? (name : String) : Option CharSet := (Script.find? name).map Script.set

/-- The set that a name alone stands for. -/
def named? (name : List Char) : Option CharSet :=
  let name := looseName name
  (NamedSet.find? Property.binary name).or ((category? name).or (script? name))

/-- The characters whose property has a value. -/
def valued? (property value : List Char) : Option CharSet :=
  let value := looseName value
  match looseName property with
  | "gc" | "generalcategory" => category? value
  | "sc" | "script" => script? value
  | "scx" | "scriptextensions" => (Script.find? value).map Script.usedIn
  | "age" => Age.find? value
  | "gcb" | "graphemeclusterbreak" => NamedSet.find? Break.grapheme value
  | "wb" | "wordbreak" => NamedSet.find? Break.word value
  | "sb" | "sentencebreak" => NamedSet.find? Break.sentence value
  | _ => none

end WellLog.Unicode
