import WellLog.Schema
/-!
# The standard schemas

The object types of the format with their attributes.  Attributes that name other objects say the
type of those objects.
-/

namespace WellLog.Schema

/-- The header of a logical file. -/
def fileHeader : Schema :=
  ⟨"FILE-HEADER", [.plain "SEQUENCE-NUMBER", .plain "ID"]⟩

/-- Where the data comes from. -/
def origin : Schema :=
  ⟨"ORIGIN", [.plain "FILE-ID", .plain "FILE-SET-NAME", .plain "FILE-SET-NUMBER",
    .plain "FILE-NUMBER", .plain "FILE-TYPE", .plain "PRODUCT", .plain "VERSION",
    .plain "PROGRAMS", .plain "CREATION-TIME", .plain "ORDER-NUMBER", .plain "DESCENT-NUMBER",
    .plain "RUN-NUMBER", .plain "WELL-ID", .plain "WELL-NAME", .plain "FIELD-NAME",
    .plain "PRODUCER-CODE", .plain "PRODUCER-NAME", .plain "COMPANY", .plain "NAME-SPACE-NAME",
    .plain "NAME-SPACE-VERSION"]⟩

/-- A coordinate axis of an array. -/
def axis : Schema :=
  ⟨"AXIS", [.plain "AXIS-ID", .plain "COORDINATES", .plain "SPACING"]⟩

/-- A sequence of measured or computed samples. -/
def channel : Schema :=
  ⟨"CHANNEL", [.naming "LONG-NAME" "LONG-NAME", .plain "PROPERTIES", .plain "REPRESENTATION-CODE",
    .plain "UNITS", .plain "DIMENSION", .naming "AXIS" "AXIS", .plain "ELEMENT-LIMIT",
    .plain "SOURCE"]⟩

/-- Channels that are sampled together. -/
def frame : Schema :=
  ⟨"FRAME", [.plain "DESCRIPTION", .naming "CHANNELS" "CHANNEL", .plain "INDEX-TYPE",
    .plain "DIRECTION", .plain "SPACING", .plain "ENCRYPTED", .plain "INDEX-MIN",
    .plain "INDEX-MAX"]⟩

/-- An ensemble of equipment. -/
def tool : Schema :=
  ⟨"TOOL", [.plain "DESCRIPTION", .plain "TRADEMARK-NAME", .plain "GENERIC-NAME",
    .naming "PARTS" "EQUIPMENT", .plain "STATUS", .naming "CHANNELS" "CHANNEL",
    .naming "PARAMETERS" "PARAMETER"]⟩

/-- A value that does not change with the samples. -/
def parameter : Schema :=
  ⟨"PARAMETER", [.naming "LONG-NAME" "LONG-NAME", .plain "DIMENSION", .naming "AXIS" "AXIS",
    .naming "ZONES" "ZONE", .plain "VALUES"]⟩

/-- A computed value. -/
def computation : Schema :=
  ⟨"COMPUTATION", [.naming "LONG-NAME" "LONG-NAME", .plain "PROPERTIES", .plain "DIMENSION",
    .naming "AXIS" "AXIS", .naming "ZONES" "ZONE", .plain "VALUES", .plain "SOURCE"]⟩

/-- An interval of depth or time. -/
def zone : Schema :=
  ⟨"ZONE", [.plain "DESCRIPTION", .plain "DOMAIN", .plain "MAXIMUM", .plain "MINIMUM"]⟩

/-- A part of a tool. -/
def equipment : Schema :=
  ⟨"EQUIPMENT", [.plain "TRADEMARK-NAME", .plain "STATUS", .plain "TYPE", .plain "SERIAL-NUMBER",
    .plain "LOCATION", .plain "HEIGHT", .plain "LENGTH", .plain "MINIMUM-DIAMETER",
    .plain "MAXIMUM-DIAMETER", .plain "VOLUME", .plain "WEIGHT", .plain "HOLE-SIZE",
    .plain "PRESSURE", .plain "TEMPERATURE", .plain "VERTICAL-DEPTH", .plain "RADIAL-DRIFT",
    .plain "ANGULAR-DRIFT"]⟩

/-- A computation from channels to channels. -/
def process : Schema :=
  ⟨"PROCESS", [.plain "DESCRIPTION", .plain "TRADEMARK-NAME", .plain "VERSION",
    .plain "PROPERTIES", .plain "STATUS", .naming "INPUT-CHANNELS" "CHANNEL",
    .naming "OUTPUT-CHANNELS" "CHANNEL", .naming "INPUT-COMPUTATIONS" "COMPUTATION",
    .naming "OUTPUT-COMPUTATIONS" "COMPUTATION", .naming "PARAMETERS" "PARAMETER",
    .plain "COMMENTS"]⟩

/-- Channels joined zone by zone. -/
def splice : Schema :=
  ⟨"SPLICE", [.naming "OUTPUT-CHANNEL" "CHANNEL", .naming "INPUT-CHANNELS" "CHANNEL",
    .naming "ZONES" "ZONE"]⟩

/-- A message with the time of its arrival. -/
def message : Schema :=
  ⟨"MESSAGE", [.plain "TYPE", .plain "TIME", .plain "BOREHOLE-DRIFT", .plain "VERTICAL-DEPTH",
    .plain "RADIAL-DRIFT", .plain "ANGULAR-DRIFT", .plain "TEXT"]⟩

/-- A free text. -/
def comment : Schema :=
  ⟨"COMMENT", [.plain "TEXT"]⟩

/-- A structured description of a quantity. -/
def longName : Schema :=
  ⟨"LONG-NAME", [.plain "GENERAL-MODIFIER", .plain "QUANTITY", .plain "QUANTITY-MODIFIER",
    .plain "ALTERED-FORM", .plain "ENTITY", .plain "ENTITY-MODIFIER", .plain "ENTITY-NUMBER",
    .plain "ENTITY-PART", .plain "ENTITY-PART-NUMBER", .plain "GENERIC-SOURCE",
    .plain "SOURCE-PART", .plain "SOURCE-PART-NUMBER", .plain "CONDITIONS",
    .plain "STANDARD-SYMBOL", .plain "PRIVATE-SYMBOL"]⟩

/-- A calibration of channels. -/
def calibration : Schema :=
  ⟨"CALIBRATION", [.plain "METHOD", .naming "CALIBRATED-CHANNELS" "CHANNEL",
    .naming "UNCALIBRATED-CHANNELS" "CHANNEL", .naming "COEFFICIENTS" "CALIBRATION-COEFFICIENT",
    .naming "MEASUREMENTS" "CALIBRATION-MEASUREMENT", .naming "PARAMETERS" "PARAMETER"]⟩

/-- The coefficients of a calibration. -/
def calibrationCoefficient : Schema :=
  ⟨"CALIBRATION-COEFFICIENT", [.plain "LABEL", .plain "COEFFICIENTS", .plain "REFERENCES",
    .plain "PLUS-TOLERANCES", .plain "MINUS-TOLERANCES"]⟩

/-- A measurement made for a calibration. -/
def calibrationMeasurement : Schema :=
  ⟨"CALIBRATION-MEASUREMENT", [.plain "PHASE", .plain "MEASUREMENT-SOURCE", .plain "TYPE",
    .plain "DIMENSION", .naming "AXIS" "AXIS", .plain "MEASUREMENT", .plain "SAMPLE-COUNT",
    .plain "MAXIMUM-DEVIATION", .plain "STANDARD-DEVIATION", .plain "BEGIN-TIME",
    .plain "DURATION", .plain "REFERENCE", .plain "STANDARD", .plain "PLUS-TOLERANCE",
    .plain "MINUS-TOLERANCE"]⟩

/-- A collection of objects of one type. -/
def group : Schema :=
  ⟨"GROUP", [.plain "DESCRIPTION", .plain "OBJECT-TYPE", ⟨"OBJECT-LIST", .typedBy "OBJECT-TYPE"⟩,
    .naming "GROUP-LIST" "GROUP"]⟩

/-- The datum of a well. -/
def wellReference : Schema :=
  ⟨"WELL-REFERENCE", [.plain "PERMANENT-DATUM", .plain "VERTICAL-ZERO",
    .plain "PERMANENT-DATUM-ELEVATION", .plain "ABOVE-PERMANENT-DATUM",
    .plain "MAGNETIC-DECLINATION", .plain "COORDINATE-1-NAME", .plain "COORDINATE-1-VALUE",
    .plain "COORDINATE-2-NAME", .plain "COORDINATE-2-VALUE", .plain "COORDINATE-3-NAME",
    .plain "COORDINATE-3-VALUE"]⟩

/-- Where the channels of a frame are located. -/
def path : Schema :=
  ⟨"PATH", [.naming "FRAME-TYPE" "FRAME", .naming "WELL-REFERENCE-POINT" "WELL-REFERENCE",
    .naming "VALUE" "CHANNEL", .plain "BOREHOLE-DEPTH", .plain "VERTICAL-DEPTH",
    .plain "RADIAL-DRIFT", .plain "ANGULAR-DRIFT", .plain "TIME", .plain "DEPTH-OFFSET",
    .plain "MEASURE-POINT-OFFSET", .plain "TOOL-ZERO-OFFSET"]⟩

/-- All standard schemas. -/
def standard : List Schema :=
  [fileHeader, origin, axis, channel, frame, tool, parameter, computation, zone, equipment,
    process, splice, message, comment, longName, calibration, calibrationCoefficient,
    calibrationMeasurement, group, wellReference, path]

end WellLog.Schema

namespace WellLog.Registry

/-- The registry of the standard schemas. -/
def standard : Registry := Schema.standard.foldl (fun r s => r.register s) empty

end WellLog.Registry
