import RelayRamp.Text.Blank

/-!
# The message catalog

Every line that the program prints about its own doing has a key and a template. A template holds placeholders,
names between braces; the values are put in one after the other, so that a value can bring in a placeholder for
those that come after it. An unknown key stands for itself.
-/
namespace RelayRamp.Cli

/-- A part of a template. -/
inductive Piece where
  | words (text : String)
  | hole (name : String)
  deriving DecidableEq, Repr

def openBrace : String := "\x7b"
def closeBrace : String := "\x7d"

def placeholder (name : String) : String := openBrace ++ name ++ closeBrace

def Piece.text : Piece → String
  | words text => text
  | hole name => placeholder name

def catalog : List (String × List Piece) :=
  [ ("main.version", [.words "warmup-gate ", .hole "version"]),
    ("output.write_failed", [.words "Failed to write to ", .hole "stream", .words ": ", .hole "error"]),
    ("config.load_failed", [.words "Failed to load config: ", .hole "error"]),
    ("config.validate.ok", [.words "Config valid."]),
    ("serve.init_failed", [.words "Failed to initialize server: ", .hole "error"]),
    ("serve.failed", [.words "Server failed: ", .hole "error"]),
    ("serve.listening.api", [.words "Admin API listening on ", .hole "addr"]),
    ("serve.listening.policy", [.words "Policy listener on ", .hole "addr"]),
    ("store.open_failed", [.words "Failed to open throttle store: ", .hole "error"]),
    ("operation.failed", [.words "Operation failed: ", .hole "error"]),
    ("output.serialize_failed", [.words "Failed to serialize output: ", .hole "error"]),
    ("warmup.phase_set",
      [.words "Warmup now in phase ", .hole "phase", .words " (", .hole "name", .words ")."]),
    ("warmup.reset",
      [.words "Warmup restarted at phase ", .hole "phase", .words " (", .hole "name", .words ")."]),
    ("transports.added",
      [.words "Added rule ", .hole "id", .words ": ", .hole "pattern", .words " -> ", .hole "transport"]),
    ("transports.removed", [.words "Removed rule ", .hole "id", .words "."]),
    ("file.written", [.words "Wrote ", .hole "path"]) ]

/-- The template of a key. -/
def template (key : String) : String :=
  match catalog.lookup key with
  | some pieces => String.join (pieces.map (·.text))
  | none => key

/-- Puts a text in place of every occurrence of a word; occurrences are found from left to right. The skip counts
the characters of an occurrence that are still to be passed over. -/
def replaceAll (word : List Char) (by' : List Char) : Nat → List Char → List Char
  | _, [] => []
  | skip + 1, _ :: rest => replaceAll word by' skip rest
  | 0, c :: rest =>
    if !word.isEmpty && word.isPrefixOf (c :: rest) then
      by' ++ replaceAll word by' (word.length - 1) rest
    else c :: replaceAll word by' 0 rest

/-- The message of a key with the given values. -/
def message (key : String) (values : List (String × String)) : String :=
  values.foldl
    (fun text (name, value) =>
      String.ofList (replaceAll (placeholder name).toList value.toList 0 text.toList))
    (template key)

end RelayRamp.Cli
