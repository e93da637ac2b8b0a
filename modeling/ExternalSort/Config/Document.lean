/-
The configuration as a document.

Written, it is an object with four keys.  Read, it may be an object with any of the keys
in any order, each at most once, among keys that nobody knows; or a list that gives the
settings in order and may stop early.  What is missing has its standard value.
-/
import ExternalSort.Config.Basic
import ExternalSort.Json.Printer
import ExternalSort.Json.Skip

namespace ExternalSort.SpillConfig

open Json Text

/-! ### Single settings -/

/-- The flaw of a value that is not of the expected kind.  A damaged value is reported as
damaged. -/
def unexpected (expected : String) (cs : List Char) : Flaw :=
  let after (r : Except Flaw (List Char)) (found : Found) : Flaw :=
    match r with
    | .ok _ => .wrongType found expected
    | .error f => f
  match skipBlank cs with
  | [] => .endInValue
  | 'n' :: r => after (word "ull".toList r) .null
  | 't' :: r => after (word "rue".toList r) (.boolean true)
  | 'f' :: r => after (word "alse".toList r) (.boolean false)
  | '"' :: r => match text r with
    | .ok (s, _) => .wrongType (.text s) expected
    | .error f => f
  | '[' :: _ => .wrongType .list expected
  | '\x7b' :: _ => .wrongType .object expected
  | c :: r =>
    if c = '-' ∨ Numeral.isDigit c then
      match signedNumber (c :: r) with
      | .ok (n, _) => .wrongType n.found expected
      | .error f => f
    else .expectedValue

/-- A text. -/
def readText (expected : String) (cs : List Char) : Except Flaw (String × List Char) :=
  match skipBlank cs with
  | '"' :: r => text r
  | _ => .error (unexpected expected cs)

/-- A size. -/
def readSize (cs : List Char) : Except Flaw (Nat × List Char) :=
  match skipBlank cs with
  | [] => .error .endInValue
  | c :: r =>
    if c = '-' ∨ Numeral.isDigit c then do
      match ← signedNumber (c :: r) with
      | (.natural n, rest) => .ok (n, rest)
      | (.negative v, _) => .error (.wrongValue (.integer v) "usize")
      | (.double w, _) => .error (.wrongType (.number w) "usize")
    else .error (unexpected "usize" cs)

/-- The paths of a list and its end.  Each step reads one of them. -/
def readPathsFrom (first : Bool) : Nat → List Char →
    Except Flaw (List Storage.Path × List Char)
  | 0, _ => .error .endInList
  | fuel + 1, cs => do
    match ← nextItem first cs with
    | none => .ok ([], ← endList cs)
    | some r =>
      let (s, rest) ← readText "path string" r
      let (ps, rest) ← readPathsFrom false fuel rest
      .ok (.ofText s :: ps, rest)

/-- A list of paths. -/
def readPaths (cs : List Char) : Except Flaw (List Storage.Path × List Char) :=
  match skipBlank cs with
  | '[' :: r => readPathsFrom true (r.length + 1) r
  | _ => .error (unexpected "a sequence" cs)

/-- The name of a compression. -/
def readName (cs : List Char) : Except Flaw (Compression × List Char) := do
  let (s, rest) ← readText "variant identifier" cs
  match Compression.ofDocument? s with
  | some c => .ok (c, rest)
  | none => .error (.unknownVariant s (Compression.all.map Compression.documentName))

/-- A compression: its name, or an object that has the name as its only key and nothing as
its value. -/
def readCompression (cs : List Char) : Except Flaw (Compression × List Char) :=
  match skipBlank cs with
  | [] => .error .endInValue
  | '"' :: r => readName ('"' :: r)
  | '\x7b' :: r => do
    let (c, rest) ← readName r
    let value ← colon rest
    let rest ← match skipBlank value with
      | 'n' :: r => word "ull".toList r
      | _ => .error (unexpected "unit" value)
    match skipBlank rest with
    | '\x7d' :: r => .ok (c, r)
    | [] => .error .endInObject
    | _ => .error .expectedValue
  | _ => .error .expectedValue

/-! ### The whole document -/

/-- Reads the value of a key into the draft; the key must not have been there before. -/
def readMember (d : Draft) (key : String) (cs : List Char) : Except Flaw (Draft × List Char) :=
  if key = "directories" then
    if d.directories.isSome then .error (.duplicateField key)
    else do
      let (v, rest) ← readPaths (← colon cs)
      .ok ({ d with directories := some v }, rest)
  else if key = "operator_id" then
    if d.operatorId.isSome then .error (.duplicateField key)
    else do
      let (v, rest) ← readText "a string" (← colon cs)
      .ok ({ d with operatorId := some v }, rest)
  else if key = "buffer_size" then
    if d.bufferSize.isSome then .error (.duplicateField key)
    else do
      let (v, rest) ← readSize (← colon cs)
      .ok ({ d with bufferSize := some v }, rest)
  else if key = "compression" then
    if d.compression.isSome then .error (.duplicateField key)
    else do
      let (v, rest) ← readCompression (← colon cs)
      .ok ({ d with compression := some v }, rest)
  else do
    .ok (d, ← skip (← colon cs))

/-- The members of an object and its end.  Each step reads one of them. -/
def readMembers (d : Draft) (first : Bool) : Nat → List Char → Except Flaw (Draft × List Char)
  | 0, _ => .error .endInObject
  | fuel + 1, cs => do
    match ← nextKey first cs with
    | none => .ok (d, ← endObject cs)
    | some r =>
      let (key, rest) ← text r
      let (d, rest) ← readMember d key rest
      readMembers d false fuel rest

/-- The settings of a list, in order, and its end. -/
def readPlaces (cs : List Char) : Except Flaw (Draft × List Char) := do
  match ← nextItem true cs with
  | none => .ok (.empty, ← endList cs)
  | some r =>
    let (directories, cs) ← readPaths r
    match ← nextItem false cs with
    | none => .ok (⟨directories, none, none, none⟩, ← endList cs)
    | some r =>
      let (operatorId, cs) ← readText "a string" r
      match ← nextItem false cs with
      | none => .ok (⟨directories, operatorId, none, none⟩, ← endList cs)
      | some r =>
        let (bufferSize, cs) ← readSize r
        match ← nextItem false cs with
        | none => .ok (⟨directories, operatorId, bufferSize, none⟩, ← endList cs)
        | some r =>
          let (compression, cs) ← readCompression r
          .ok (⟨directories, operatorId, bufferSize, compression⟩, ← endList cs)

/-- The settings of a document. -/
def readDraft (document : String) : Except Flaw Draft := do
  let cs := skipBlank document.toList
  let (d, rest) ← match cs with
    | '[' :: r => readPlaces r
    | '\x7b' :: r => readMembers .empty true (r.length + 1) r
    | _ => .error (unexpected "struct SpillConfig" cs)
  endDocument rest
  .ok d

/-- The configuration in a document. -/
def ofDocument (document : String) : Except Fault SpillConfig :=
  match readDraft document with
  | .ok d => d.complete.checked
  | .error f => .error (.data (.document f))

/-- The configuration in a file, given what reading the file came to. -/
def load (content : Except Fault.IoFault Bytes) : Except Fault SpillConfig :=
  match content with
  | .error f => .error (.io f)
  | .ok octets => match Utf8.decode? octets with
    | some s => ofDocument s
    | none => .error (.io .notText)

/-- The directories as texts, if all are texts. -/
def directoryTexts (c : SpillConfig) : Option (List String) :=
  c.directories.mapM (·.toText?)

/-- The configuration written as a document. -/
def toDocument (c : SpillConfig) : Except Fault String :=
  match c.directoryTexts with
  | none => .error (.data .pathNotText)
  | some directories => .ok (String.ofList (object [
      ("directories", list (directories.map quote)),
      ("operator_id", quote c.operatorId),
      ("buffer_size", (Numeral.ofNat c.bufferSize).toList),
      ("compression", quote c.compression.documentName)]))

end ExternalSort.SpillConfig
