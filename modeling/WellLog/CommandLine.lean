import WellLog.Text.Blank
/-!
# The command line

A command line is options, the name of a command, and the options and the argument of that command.
The options of the program may stand on either side of the command's name; where one stands on both
sides, the one behind the name counts.

An option is written `--name value`, `--name=value`, `-x value`, `-xvalue` or `-x=value`.  A value
in a word of its own does not begin with a hyphen, unless it is nothing else.  Behind a word `--`
there are only arguments.
-/

namespace WellLog

/-- How a report is written. -/
inductive ReportFormat where
  /-- For reading. -/
  | text
  /-- For other programs. -/
  | json
  deriving DecidableEq, Repr

/-- What is asked for. -/
inductive Command where
  /-- The logical files. -/
  | files
  /-- Their types. -/
  | types
  /-- The objects of a type, with a name if it is given. -/
  | objects (type : String) (name : Option String) (exact links : Bool)
  /-- The outcome of linking. -/
  | link
  deriving DecidableEq, Repr

/-- A command line. -/
structure Invocation where
  /-- The format of the report. -/
  format : ReportFormat
  /-- The path of a file with settings. -/
  config : Option String
  /-- How many bytes are searched for the first visible record, other than the settings say. -/
  searchLimit : Option Nat
  /-- Promoted objects are not kept, whatever the settings say. -/
  noCache : Bool
  /-- What is asked for. -/
  command : Command
  /-- The path of the physical file. -/
  path : String
  deriving DecidableEq, Repr

namespace CommandLine

/-! ### Words -/

/-- A word of the command line. -/
inductive Word where
  /-- An argument, a value or the name of a command. -/
  | plain
  /-- The word behind which there are only arguments. -/
  | escape
  /-- An option with its long name, and the value behind the sign `=`. -/
  | long (name : String) (value : Option String)
  /-- An option with its short name, and the value in the same word. -/
  | short (name : Char) (value : Option String)
  deriving DecidableEq, Repr

/-- What a word is by its first characters. -/
def Word.ofChars : List Char → Word
  | ['-', '-'] => .escape
  | '-' :: '-' :: cs =>
    match cs.span (· != '=') with
    | (name, '=' :: value) => .long (String.ofList name) (some (String.ofList value))
    | (name, _) => .long (String.ofList name) none
  | ['-', name] => .short name none
  | '-' :: name :: '=' :: value => .short name (some (String.ofList value))
  | '-' :: name :: value => .short name (some (String.ofList value))
  | _ => .plain

/-- The options of all commands. -/
inductive Key where
  /-- The format of the report. -/
  | format
  /-- The file with settings. -/
  | config
  /-- The bytes to search. -/
  | searchLimit
  /-- Objects are not kept. -/
  | noCache
  /-- The type of objects. -/
  | type
  /-- The name of objects. -/
  | name
  /-- Type and name are not patterns. -/
  | exact
  /-- Links are shown. -/
  | links
  deriving DecidableEq, Repr

namespace Key

/-- The long name. -/
def long : Key → String
  | format => "format"
  | config => "config"
  | searchLimit => "search-limit"
  | noCache => "no-cache"
  | type => "type"
  | name => "name"
  | exact => "exact"
  | links => "links"

/-- The short name. -/
def short? : Key → Option Char
  | format => some 'o'
  | type => some 't'
  | name => some 'n'
  | _ => none

/-- The option has a value. -/
def takesValue : Key → Bool
  | noCache => false
  | exact => false
  | links => false
  | _ => true

/-- The options of the program, which every command takes. -/
def common : List Key := [format, config, searchLimit, noCache]

/-- The option that a word names. -/
def ofWord? (keys : List Key) : Word → Option Key
  | .long n _ => keys.find? (·.long == n)
  | .short n _ => keys.find? (·.short? == some n)
  | _ => none

end Key

/-! ### Reading words -/

/-- What was read so far. -/
structure Reading where
  /-- The options with their values; an option without a value has the empty text. -/
  given : List (Key × String)
  /-- The plain words in order. -/
  plain : List String
  deriving DecidableEq, Repr

namespace Reading

/-- Nothing. -/
def empty : Reading := ⟨[], []⟩

/-- One more option, which must not be there already. -/
def add? (r : Reading) (key : Key) (value : String) : Option Reading :=
  if (r.given.lookup key).isSome then none else some { r with given := (key, value) :: r.given }

/-- The value of an option. -/
def value? (r : Reading) (key : Key) : Option String := r.given.lookup key

/-- The option is there. -/
def has (r : Reading) (key : Key) : Bool := (r.value? key).isSome

end Reading

/-- The value in the same word. -/
def Word.value? : Word → Option String
  | .long _ value => value
  | .short _ value => value
  | _ => none

/-- Reads words, up to the first plain one if `toFirst` is set, and returns the words that are
left. -/
def read? (keys : List Key) (toFirst : Bool) (r : Reading) :
    List String → Option (Reading × List String)
  | [] => some (r, [])
  | text :: words =>
    match Word.ofChars text.toList with
    | .plain =>
      let r := { r with plain := r.plain ++ [text] }
      if toFirst then some (r, words) else read? keys toFirst r words
    | .escape => if toFirst then none else some ({ r with plain := r.plain ++ words }, [])
    | word =>
      match Key.ofWord? keys word with
      | none => none
      | some key =>
        if key.takesValue then
          match word.value?, words with
          | some value, words =>
            match r.add? key value with
            | some r => read? keys toFirst r words
            | none => none
          | none, value :: words =>
            if Word.ofChars value.toList = .plain then
              match r.add? key value with
              | some r => read? keys toFirst r words
              | none => none
            else none
          | none, [] => none
        else if word.value?.isSome then none
        else
          match r.add? key "" with
          | some r => read? keys toFirst r words
          | none => none

/-! ### Meaning -/

/-- The options of the program. -/
structure Common where
  /-- The format of the report. -/
  format : Option ReportFormat
  /-- The file with settings. -/
  config : Option String
  /-- The bytes to search. -/
  searchLimit : Option Nat
  /-- Objects are not kept. -/
  noCache : Bool
  deriving DecidableEq, Repr

/-- Reads the value of an option if it is there. -/
def valueOf? {α : Type} (r : Reading) (key : Key) (read? : String → Option α) :
    Option (Option α) :=
  match r.value? key with
  | none => some none
  | some text => (read? text).map some

/-- The format of a name. -/
def formatOf? (name : String) : Option ReportFormat :=
  if name = "text" then some .text else if name = "json" then some .json else none

/-- A path, which is not empty. -/
def pathOf? (text : String) : Option String := if text.isEmpty then none else some text

/-- The options of the program among those that were read. -/
def commonOf? (r : Reading) : Option Common := do
  return ⟨← valueOf? r .format formatOf?, ← valueOf? r .config pathOf?,
    ← valueOf? r .searchLimit (Text.number? UInt64.size), r.has .noCache⟩

/-- The options that a command takes beside the common ones. -/
def ownKeys? (command : String) : Option (List Key) :=
  if command = "files" ∨ command = "types" ∨ command = "link" then some []
  else if command = "objects" then some [.type, .name, .exact, .links]
  else none

/-- The command of a name with its options. -/
def commandOf? (command : String) (r : Reading) : Option Command :=
  if command = "files" then some .files
  else if command = "types" then some .types
  else if command = "link" then some .link
  else
    (r.value? .type).map fun type =>
      .objects type (r.value? .name) (r.has .exact) (r.has .links)

/-- The argument of a command, which is a path. -/
def argument? : List String → Option String
  | [path] => pathOf? path
  | _ => none

end CommandLine

open CommandLine in
/-- The meaning of a command line, if it has one. -/
def Invocation.ofWords? (words : List String) : Option Invocation := do
  let (before, words) ← read? Key.common true .empty words
  let outer ← commonOf? before
  let command ← before.plain.head?
  let own ← ownKeys? command
  let (behind, _) ← read? (Key.common ++ own) false .empty words
  let inner ← commonOf? behind
  return {
    format := (inner.format <|> outer.format).getD .text
    config := inner.config <|> outer.config
    searchLimit := inner.searchLimit <|> outer.searchLimit
    noCache := inner.noCache || outer.noCache
    command := ← commandOf? command behind
    path := ← argument? behind.plain }

end WellLog
