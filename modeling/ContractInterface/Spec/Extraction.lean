/-
# Extracting the interface of a module

A module carries its interface in the custom sections named `contractspecv0`, and metadata with
the name of the contract in those named `contractmetav0`.  An extractor collects the entries of
one module after the other; a failed extraction leaves what it had collected, and the next one
starts anew.  An entry that fails half-way contributes nothing.
-/
import ContractInterface.Spec.Entry
import ContractInterface.Wasm.Section

namespace ContractInterface.Spec

/-- The name of the sections with the interface. -/
def specSection : String := "contractspecv0"

/-- The name of the sections with the metadata. -/
def metaSection : String := "contractmetav0"

/-- Why a module has no interface. -/
inductive ExtractionError where
  /-- The bytes are no module. -/
  | format (fault : Wasm.Fault)
  /-- No section has an interface. -/
  | noSection
  /-- An entry, which begins at an offset, cannot be read. -/
  | malformedEntry (offset : Nat) (fault : Xdr.WireFault)
  /-- The metadata cannot be read. -/
  | malformedMeta (fault : Xdr.WireFault)
  /-- An entry holds what no interface or metadata may hold. -/
  | violation (violation : Violation)
  /-- A name is mentioned but not declared. -/
  | dangling (dangling : Dangling)
deriving DecidableEq, Repr

/-- The wording of an error. -/
def ExtractionError.message : ExtractionError → String
  | .format fault => fault.message
  | .noSection => s!"WASM module has no '{specSection}' custom section"
  | .malformedEntry offset fault => s!"Malformed spec entry at offset {offset}: {fault.message}"
  | .malformedMeta fault => s!"Malformed contract metadata: {fault.message}"
  | .violation found => found.message
  | .dangling found => found.message

/-- Collects the entries from a place in a section on.  Every entry takes at least one byte, so as
many steps as there are bytes ahead reach the end. -/
def Collected.readFrom : (steps : Nat) → Xdr.Cursor → Collected →
    Except ExtractionError Unit × Collected
  | 0, _, collected => (.ok (), collected)
  | steps + 1, cursor, collected =>
    if cursor.isAtEnd then (.ok (), collected)
    else match Entry.read.run cursor with
      | .ok entry next =>
        let raw := cursor.ahead.take (next.offset - cursor.offset)
        readFrom steps next ((collected.add entry).addRaw raw)
      | .error (.wire fault) _ => (.error (.malformedEntry cursor.offset fault), collected)
      | .error (.format found) _ => (.error (.violation found), collected)

/-- Collects the entries of sections, up to the first that cannot be read. -/
def Collected.readSections (collected : Collected) : List Bytes →
    Except ExtractionError Unit × Collected
  | [] => (.ok (), collected)
  | bytes :: rest =>
    match Collected.readFrom bytes.length (Xdr.Cursor.start bytes) collected with
    | (.ok (), collected) => collected.readSections rest
    | (.error error, collected) => (.error error, collected)

/-- A name and a value in the metadata of a module. -/
structure MetaEntry where
  key : Bytes
  value : Bytes
deriving DecidableEq, Repr

/-- Reads an entry of the metadata. -/
def MetaEntry.read : Reader MetaEntry := do
  let kind ← Xdr.Reader.int32
  if kind ≠ 0 then Xdr.Reader.reject (.unknownMetaKind kind)
  let key ← readName
  let value ← readName
  return { key, value }

/-- The name that an entry of the metadata gives to the contract. -/
def MetaEntry.contractName? (entry : MetaEntry) : Option String :=
  if Utf8.decodeLossy entry.key = "name" ∧ ¬entry.value.isEmpty then
    some (Utf8.decodeLossy entry.value)
  else none

/-- The name of the contract in the metadata from a place on; what follows it is not read. -/
def nameFrom : (steps : Nat) → Xdr.Cursor → Except ExtractionError (Option String)
  | 0, _ => .ok none
  | steps + 1, cursor =>
    if cursor.isAtEnd then .ok none
    else match MetaEntry.read.run cursor with
      | .ok entry next =>
        match entry.contractName? with
        | some name => .ok (some name)
        | none => nameFrom steps next
      | .error (.wire fault) _ => .error (.malformedMeta fault)
      | .error (.format found) _ => .error (.violation found)

/-- The name of the contract in sections of metadata. -/
def nameIn : List Bytes → Except ExtractionError (Option String)
  | [] => .ok none
  | bytes :: rest => do
    match ← nameFrom bytes.length (Xdr.Cursor.start bytes) with
    | some name => return some name
    | none => nameIn rest

/-- The name of the contract in the metadata of a module. -/
def contractName (wasm : Bytes) : Except ExtractionError (Option String) := do
  nameIn (← (Wasm.contentsOf wasm metaSection).mapError .format)

/-- The interface made of what has been collected. -/
def Collected.toSpec (collected : Collected) (name : Option String) : Spec where
  name := name
  functions := collected.functions
  types := collected.types
  errors := collected.errors
  rawEntries := collected.rawEntries

/-- Refuses an interface in which a name is mentioned but not declared. -/
def checkReferences (spec : Spec) : Except ExtractionError Unit :=
  match spec.dangling? with
  | none => .ok ()
  | some found => .error (.dangling found)

/-- An extractor, with what it collected from the last module. -/
structure Extractor where
  /-- Whether every mentioned name has to be declared. -/
  validates : Bool
  collected : Collected
deriving Repr

namespace Extractor

/-- An extractor that has seen no module. -/
def fresh (validates : Bool) : Extractor :=
  ⟨validates, .empty⟩

/-- The interface that ends an extraction, once all entries are collected. -/
def finish (extractor : Extractor) (wasm : Bytes) : Except ExtractionError Spec := do
  let spec := extractor.collected.toSpec (← contractName wasm)
  if extractor.validates then checkReferences spec
  return spec

/-- Extracts the interface of a module. -/
def extract (extractor : Extractor) (wasm : Bytes) : Except ExtractionError Spec × Extractor :=
  let extractor := fresh extractor.validates
  match Wasm.contentsOf wasm specSection with
  | .error fault => (.error (.format fault), extractor)
  | .ok [] => (.error .noSection, extractor)
  | .ok sections =>
    let (outcome, collected) := extractor.collected.readSections sections
    let extractor := { extractor with collected }
    match outcome with
    | .error error => (.error error, extractor)
    | .ok () => (extractor.finish wasm, extractor)

end Extractor

/-- The interface of a module. -/
def extract (validates : Bool) (wasm : Bytes) : Except ExtractionError Spec :=
  ((Extractor.fresh validates).extract wasm).1

end ContractInterface.Spec
