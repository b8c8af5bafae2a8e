/-
# Sections of a module

A module is eight bytes of magic and version, and then sections: an id, the length of the payload
and the payload.  A section with id zero is custom; its payload begins with a name.  Reading gives
the sections in front of the first fault, and the fault if there is one.
-/
import ContractInterface.Bytes.Utf8
import ContractInterface.Wasm.Leb128

namespace ContractInterface.Wasm

/-- The first four bytes of a module. -/
def magic : Bytes := [0x00, 0x61, 0x73, 0x6D]

/-- The four bytes after the magic. -/
def version : Bytes := [0x01, 0x00, 0x00, 0x00]

/-- Why a byte string is not a module. -/
inductive Fault where
  | badMagic
  | badVersion (found : Bytes)
  /-- A length cannot be read. -/
  | badLength (defect : Leb128.Defect)
  /-- A payload, which begins at an offset, ends after the module. -/
  | sectionOverrun (id : UInt8) (offset : Nat)
  /-- The name of a custom section ends after the section. -/
  | nameOverrun
  /-- The name of a custom section is not text. -/
  | nameNotText (defect : Utf8.Defect)
deriving DecidableEq, Repr

/-- The wording of a fault. -/
def Fault.message : Fault → String
  | .badMagic => "Not a WASM module (bad magic number)"
  | .badVersion found => s!"Unsupported WASM version {Hex.encode found}"
  | .badLength defect => defect.message
  | .sectionOverrun id offset => s!"Section {id} at offset {offset} overruns the module"
  | .nameOverrun => "Custom section name overruns its section"
  | .nameNotText defect => "Custom section name is not UTF-8: " ++ defect.message

/-- A section. -/
structure Section where
  id : UInt8
  payload : Bytes
deriving DecidableEq, Repr

/-- A custom section. -/
structure CustomSection where
  name : String
  contents : Bytes
deriving DecidableEq, Repr

/-- What was read, and the fault that reading stopped at, if it did not reach the end. -/
structure Run (α : Type) where
  items : List α
  stopped : Option Fault
deriving Repr

namespace Run

variable {α : Type}

/-- Puts an item in front. -/
def cons (item : α) (run : Run α) : Run α :=
  { run with items := item :: run.items }

/-- The items, if reading reached the end. -/
def toExcept (run : Run α) : Except Fault (List α) :=
  match run.stopped with
  | none => .ok run.items
  | some fault => .error fault

end Run

/-- The sections in a part of a module that reaches up to its end at the offset `size`. -/
def sectionsIn (size : Nat) : Bytes → Run Section
  | [] => ⟨[], none⟩
  | id :: rest =>
    match h : Leb128.read rest with
    | .error defect => ⟨[], some (.badLength defect)⟩
    | .ok (length, body) =>
      match h' : Bytes.split? length body with
      | none => ⟨[], some (.sectionOverrun id (size - body.length))⟩
      | some (payload, next) =>
        have shorter : next.length < (id :: rest).length := by
          have length_lt := Leb128.length_lt_of_read h
          have cut := (Bytes.split?_eq_some_iff.1 h').2
          simp only [cut, List.length_append, List.length_cons] at *
          omega
        (sectionsIn size next).cons ⟨id, payload⟩
termination_by bytes => bytes.length
decreasing_by exact shorter

/-- The sections of a module. -/
def sections (wasm : Bytes) : Run Section :=
  if wasm.length < 8 ∨ wasm.take 4 ≠ magic then ⟨[], some .badMagic⟩
  else if (wasm.drop 4).take 4 ≠ version then ⟨[], some (.badVersion ((wasm.drop 4).take 4))⟩
  else sectionsIn wasm.length (wasm.drop 8)

/-- The custom section in a payload. -/
def CustomSection.ofPayload (payload : Bytes) : Except Fault CustomSection :=
  match Leb128.read payload with
  | .error defect => .error (.badLength defect)
  | .ok (length, body) =>
    match Bytes.split? length body with
    | none => .error .nameOverrun
    | some (name, contents) =>
      match Utf8.decode name with
      | .error defect => .error (.nameNotText defect)
      | .ok name => .ok ⟨name, contents⟩

/-- The custom sections among the sections of a run. -/
def customIn (stopped : Option Fault) : List Section → Run CustomSection
  | [] => ⟨[], stopped⟩
  | ⟨id, payload⟩ :: rest =>
    if id ≠ 0 then customIn stopped rest
    else match CustomSection.ofPayload payload with
      | .error fault => ⟨[], some fault⟩
      | .ok found => (customIn stopped rest).cons found

/-- The custom sections of a module. -/
def customSections (wasm : Bytes) : Run CustomSection :=
  let run := sections wasm
  customIn run.stopped run.items

/-- The contents of the custom sections of a name, if the whole module can be read. -/
def contentsOf (wasm : Bytes) (name : String) : Except Fault (List Bytes) :=
  (customSections wasm).toExcept.map fun found =>
    (found.filter (·.name = name)).map (·.contents)

end ContractInterface.Wasm
