/-
# Reading exactly what is written

A reader of the representation succeeds exactly in front of a written form of a value, gives that
value and stops right behind the form.  `Cursor.Passes` says that a place lies behind given bytes
of another, and `Reads` states the law of a reader for a set of values and their written form.

Every primitive has its law as an equivalence, so that the law of a reader that is put together
from them follows by rewriting with `bind_eq_ok`:

* `uint32_eq_ok`, `int32_eq_ok`, `uint64_eq_ok`, `int64_eq_ok`, `boolean_eq_ok` and `counted_eq_ok`
  for the primitives;
* `Reads.optional` for optional values;
* `array_eq_ok` for arrays, of which every element must take at least four bytes.
-/
import Mathlib.Tactic.SplitIfs
import ContractInterface.Proofs.Bytes.Number
import ContractInterface.Proofs.Xdr.Form
import ContractInterface.Xdr.Reader

namespace ContractInterface.Xdr

namespace Cursor

/-- The place `c'` lies behind `bytes`, which stand at the place `c`. -/
structure Passes (c : Cursor) (bytes : Bytes) (c' : Cursor) : Prop where
  inside : c.offset ≤ c.size
  data_eq : c'.data = c.data
  offset_eq : c'.offset = c.offset + bytes.length
  ahead_eq : c.ahead = bytes ++ c'.ahead

variable {c c' c'' : Cursor} {bytes u v : Bytes}

/-- Inside a byte string, the bytes ahead reach from the place to the end. -/
lemma length_ahead (h : c.offset ≤ c.size) : c.offset + c.ahead.length = c.size := by
  rw [c.size_eq] at h
  rw [c.ahead_eq, c.size_eq, List.length_drop]
  omega

lemma isAtEnd_iff (h : c.offset ≤ c.size) : c.isAtEnd ↔ c.ahead = [] := by
  have hlen := length_ahead h
  rw [isAtEnd, beq_iff_eq, ← List.length_eq_zero_iff]
  omega

namespace Passes

lemma size_eq (h : c.Passes bytes c') : c'.size = c.size := by
  rw [c'.size_eq, h.data_eq, c.size_eq]

lemma inside_right (h : c.Passes bytes c') : c'.offset ≤ c'.size := by
  have hlen := length_ahead h.inside
  rw [h.ahead_eq, List.length_append] at hlen
  rw [h.size_eq, h.offset_eq]
  omega

lemma refl (h : c.offset ≤ c.size) : c.Passes [] c :=
  ⟨h, rfl, rfl, rfl⟩

lemma trans (hu : c.Passes u c') (hv : c'.Passes v c'') : c.Passes (u ++ v) c'' where
  inside := hu.inside
  data_eq := hv.data_eq.trans hu.data_eq
  offset_eq := by rw [hv.offset_eq, hu.offset_eq, List.length_append, Nat.add_assoc]
  ahead_eq := by rw [hu.ahead_eq, hv.ahead_eq, List.append_assoc]

lemma length_ahead_eq (h : c.Passes bytes c') :
    c.ahead.length = bytes.length + c'.ahead.length := by
  rw [h.ahead_eq, List.length_append]

/-- In front of some bytes there is more to read. -/
lemma not_isAtEnd (h : c.Passes bytes c') (hpos : 0 < bytes.length) : ¬c.isAtEnd = true := by
  have hlen := h.length_ahead_eq
  rw [isAtEnd_iff h.inside, ← List.length_eq_zero_iff]
  omega

/-- The place behind given bytes is unique. -/
lemma unique (h : c.Passes bytes c') (h' : c.Passes bytes c'') : c' = c'' :=
  Cursor.ext (h.data_eq.trans h'.data_eq.symm) (h.offset_eq.trans h'.offset_eq.symm)

end Passes

lemma passes_advance (hin : c.offset ≤ c.size) {taken rest : Bytes}
    (h : c.ahead = taken ++ rest) : c.Passes taken (c.advance taken rest h) :=
  ⟨hin, rfl, rfl, h⟩

/-- There is a place behind any bytes that stand in front. -/
lemma exists_passes (hin : c.offset ≤ c.size) {taken rest : Bytes} (h : c.ahead = taken ++ rest) :
    ∃ c', c.Passes taken c' ∧ c'.ahead = rest :=
  ⟨_, passes_advance hin h, rfl⟩

/-- At an offset, what is passed stands in front of the bytes from there on. -/
lemma passes_place_iff {data : Bytes} {offset : Nat} {next : Cursor} :
    (place data offset).Passes bytes next ↔
      offset ≤ data.length ∧ bytes <+: data.drop offset ∧
        next = place data (offset + bytes.length) := by
  constructor
  · intro h
    exact ⟨h.inside, ⟨_, h.ahead_eq.symm⟩, Cursor.ext h.data_eq h.offset_eq⟩
  · rintro ⟨hinside, ⟨rest, hrest⟩, rfl⟩
    refine ⟨hinside, rfl, rfl, ?_⟩
    change data.drop offset = bytes ++ data.drop (offset + bytes.length)
    rw [← List.drop_drop, ← hrest, List.drop_left]

lemma start_inside (bytes : Bytes) : (start bytes).offset ≤ (start bytes).size :=
  Nat.zero_le _

/-- There is a place behind any first part of a byte string. -/
lemma exists_passes_start (bytes rest : Bytes) :
    ∃ c', (start (bytes ++ rest)).Passes bytes c' ∧ c'.ahead = rest :=
  exists_passes (start_inside _) rfl

/-- A byte string is what has been passed when nothing is ahead any more. -/
lemma eq_of_passes_start (h : (start bytes).Passes u c) (hend : c.ahead = []) : bytes = u := by
  have hahead := h.ahead_eq
  rw [hend, List.append_nil] at hahead
  exact hahead

lemma passes_nil_iff : c.Passes [] c' ↔ c.offset ≤ c.size ∧ c = c' := by
  constructor
  · intro h
    exact ⟨h.inside, (Passes.refl h.inside).unique h⟩
  · rintro ⟨h, rfl⟩
    exact Passes.refl h

lemma passes_append_iff : c.Passes (u ++ v) c'' ↔ ∃ c', c.Passes u c' ∧ c'.Passes v c'' := by
  constructor
  · intro h
    have hahead := h.ahead_eq
    rw [List.append_assoc] at hahead
    obtain ⟨c', hu, hrest⟩ := exists_passes h.inside hahead
    refine ⟨c', hu, hu.inside_right, ?_, ?_, hrest⟩
    · rw [h.data_eq, hu.data_eq]
    · rw [h.offset_eq, hu.offset_eq, List.length_append, Nat.add_assoc]
  · rintro ⟨c', hu, hv⟩
    exact hu.trans hv

end Cursor

namespace Reader

variable {ε α β : Type} {c c' : Cursor}

/-! ### Steps of a reader -/

lemma bind_eq_ok {x : Reader ε α} {f : α → Reader ε β} {b : β} :
    (x >>= f) c = .ok b c' ↔ ∃ a c₁, x c = .ok a c₁ ∧ f a c₁ = .ok b c' := by
  change EStateM.bind x f c = _ ↔ _
  rw [EStateM.bind]
  cases x c <;> simp

lemma bind_of_ok {x : Reader ε α} {f : α → Reader ε β} {a : α} (h : x c = .ok a c') :
    (x >>= f) c = f a c' := by
  change EStateM.bind x f c = _
  rw [EStateM.bind, h]

lemma bind_of_error {x : Reader ε α} {f : α → Reader ε β} {fault : Fault ε}
    (h : x c = .error fault c') : (x >>= f) c = .error fault c' := by
  change EStateM.bind x f c = _
  rw [EStateM.bind, h]

lemma pure_eq_ok {a b : α} : (pure a : Reader ε α) c = .ok b c' ↔ a = b ∧ c = c' := by
  change EStateM.Result.ok a c = _ ↔ _
  simp

lemma get_eq_ok {c₁ : Cursor} :
    (get : Reader ε Cursor) c = .ok c₁ c' ↔ c = c₁ ∧ c = c' := by
  change EStateM.Result.ok c c = _ ↔ _
  simp

lemma value_eq_ok {read : Reader ε α} {data : Bytes} {a : α} :
    value read data = .ok a ↔ ∃ c', read (Cursor.start data) = .ok a c' := by
  rw [value, EStateM.run]
  cases read (Cursor.start data) <;> simp

lemma value_of_error {read : Reader ε α} {data : Bytes} {fault : Fault ε}
    (h : read (Cursor.start data) = .error fault c') : value read data = .error fault := by
  rw [value, EStateM.run, h]

@[simp] lemma fail_ne_ok {fault : WireFault} {a : α} :
    (fail fault : Reader ε α) c ≠ .ok a c' :=
  fun h => nomatch h

@[simp] lemma reject_ne_ok {fault : ε} {a : α} : (reject fault : Reader ε α) c ≠ .ok a c' :=
  fun h => nomatch h

lemma expectEnd_eq_ok {done : Unit} :
    (expectEnd : Reader ε Unit) c = .ok done c' ↔ c.isAtEnd = true ∧ c = c' := by
  simp only [expectEnd, bind_eq_ok, get_eq_ok]
  constructor
  · rintro ⟨_, _, ⟨rfl, rfl⟩, h⟩
    split_ifs at h with hend
    · exact absurd h fail_ne_ok
    · exact ⟨by simpa using hend, (pure_eq_ok.1 h).2⟩
  · rintro ⟨hend, rfl⟩
    refine ⟨c, c, ⟨rfl, rfl⟩, ?_⟩
    simp only [hend, Bool.not_true, Bool.false_eq_true, if_false]
    rfl

/-! ### Byte strings and numbers -/

lemma takeExactly_eq_ok {count : Nat} {bytes : { bytes : Bytes // bytes.length = count }} :
    (takeExactly count : Reader ε _) c = .ok bytes c' ↔ c.Passes bytes.val c' := by
  rw [takeExactly]
  split_ifs with hpast
  · have hout : ¬c.offset ≤ c.size := by simpa [Cursor.isPastEnd] using hpast
    simp only [fail_ne_ok, false_iff]
    exact fun h => hout h.inside
  · have hin : c.offset ≤ c.size := by simpa [Cursor.isPastEnd] using hpast
    split
    · rename_i hcut
      simp only [fail_ne_ok, false_iff]
      intro h
      have hlen := congrArg List.length h.ahead_eq
      rw [List.length_append, bytes.property] at hlen
      have := Bytes.split?_eq_none_iff.1 hcut
      omega
    · rename_i taken rest hcut
      obtain ⟨hlen, hahead⟩ := Bytes.split?_eq_some_iff.1 hcut
      have hpass := Cursor.passes_advance hin hahead
      simp only [EStateM.Result.ok.injEq]
      constructor
      · rintro ⟨rfl, rfl⟩
        exact hpass
      · intro h
        have heq : taken = bytes.val :=
          (List.append_inj (hahead.symm.trans h.ahead_eq) (hlen.trans bytes.property.symm)).1
        subst heq
        exact ⟨rfl, hpass.unique h⟩

lemma take_eq_ok {count : Nat} {bytes : Bytes} :
    (take count : Reader ε Bytes) c = .ok bytes c' ↔ bytes.length = count ∧ c.Passes bytes c' := by
  simp only [take, bind_eq_ok, takeExactly_eq_ok, pure_eq_ok]
  constructor
  · rintro ⟨taken, c₁, h, rfl, rfl⟩
    exact ⟨taken.property, h⟩
  · rintro ⟨hlen, h⟩
    exact ⟨⟨bytes, hlen⟩, c', h, rfl, rfl⟩

/-- The law of a number that is made from the bytes of its width. -/
lemma exists_taken_iff {width : Nat} {make : Nat → α} {size : α → Nat}
    (hmake : ∀ m < Bytes.bound width, size (make m) = m)
    (hsize : ∀ n, size n < Bytes.bound width ∧ make (size n) = n) {n : α} :
    (∃ bytes c₁, (bytes.length = width ∧ c.Passes bytes c₁) ∧
      make (Bytes.toNat bytes) = n ∧ c₁ = c') ↔ c.Passes (Bytes.ofNat width (size n)) c' := by
  constructor
  · rintro ⟨bytes, c₁, ⟨hlen, h⟩, rfl, rfl⟩
    have hlt := Bytes.toNat_lt_bound bytes
    rw [hlen] at hlt
    have hform : Bytes.ofNat width (size (make (Bytes.toNat bytes))) = bytes := by
      rw [hmake _ hlt, ← hlen, Bytes.ofNat_toNat]
    rw [hform]
    exact h
  · intro h
    obtain ⟨hlt, hn⟩ := hsize n
    refine ⟨_, c', ⟨Bytes.length_ofNat width (size n), h⟩, ?_, rfl⟩
    rw [Bytes.toNat_ofNat, Nat.mod_eq_of_lt hlt, hn]

theorem uint32_eq_ok {n : UInt32} :
    (uint32 : Reader ε UInt32) c = .ok n c' ↔ c.Passes (ofUInt32 n) c' := by
  simp only [uint32, bind_eq_ok, take_eq_ok, pure_eq_ok]
  refine exists_taken_iff (fun m hm => ?_) fun n => ⟨?_, UInt32.ofNat_toNat⟩
  · exact UInt32.toNat_ofNat_of_lt' hm
  · exact n.toNat_lt

theorem uint64_eq_ok {n : UInt64} :
    (uint64 : Reader ε UInt64) c = .ok n c' ↔ c.Passes (ofUInt64 n) c' := by
  simp only [uint64, bind_eq_ok, take_eq_ok, pure_eq_ok]
  refine exists_taken_iff (fun m hm => ?_) fun n => ⟨?_, UInt64.ofNat_toNat⟩
  · exact UInt64.toNat_ofNat_of_lt' hm
  · exact n.toNat_lt

theorem int32_eq_ok {n : Int32} :
    (int32 : Reader ε Int32) c = .ok n c' ↔ c.Passes (ofInt32 n) c' := by
  simp only [int32, bind_eq_ok, uint32_eq_ok, pure_eq_ok, ofInt32]
  constructor
  · rintro ⟨m, c₁, h, rfl, rfl⟩
    exact h
  · intro h
    exact ⟨n.toUInt32, c', h, rfl, rfl⟩

theorem int64_eq_ok {n : Int64} :
    (int64 : Reader ε Int64) c = .ok n c' ↔ c.Passes (ofInt64 n) c' := by
  simp only [int64, bind_eq_ok, uint64_eq_ok, pure_eq_ok, ofInt64]
  constructor
  · rintro ⟨m, c₁, h, rfl, rfl⟩
    exact h
  · intro h
    exact ⟨n.toUInt64, c', h, rfl, rfl⟩

theorem boolean_eq_ok {b : Bool} :
    (boolean : Reader ε Bool) c = .ok b c' ↔ c.Passes (ofBool b) c' := by
  simp only [boolean, bind_eq_ok, uint32_eq_ok]
  constructor
  · rintro ⟨n, c₁, hn, h⟩
    split_ifs at h with hzero hone
    · obtain ⟨rfl, rfl⟩ := pure_eq_ok.1 h
      rw [hzero] at hn
      exact hn
    · obtain ⟨rfl, rfl⟩ := pure_eq_ok.1 h
      rw [hone] at hn
      exact hn
    · exact absurd h fail_ne_ok
  · intro h
    refine ⟨if b then 1 else 0, c', h, ?_⟩
    cases b <;> rfl

lemma skipPadding_eq_ok {length : Nat} {done : Unit} :
    (skipPadding length : Reader ε Unit) c = .ok done c' ↔
      c.Passes (List.replicate (padding length) 0) c' := by
  simp only [skipPadding, bind_eq_ok, take_eq_ok]
  constructor
  · rintro ⟨fill, c₁, ⟨hlen, h⟩, hfill⟩
    split_ifs at hfill with hany
    · exact absurd hfill fail_ne_ok
    · obtain ⟨-, rfl⟩ := pure_eq_ok.1 hfill
      have hzero : fill = List.replicate (padding length) 0 := by
        refine List.eq_replicate_iff.2 ⟨hlen, fun byte hbyte => ?_⟩
        by_contra hne
        exact hany (List.any_eq_true.2 ⟨byte, hbyte, decide_eq_true hne⟩)
      rw [← hzero]
      exact h
  · intro h
    refine ⟨_, c', ⟨List.length_replicate, h⟩, ?_⟩
    rw [if_neg (by simp)]
    rfl

lemma fixed_eq_ok {length : Nat} {bytes : { bytes : Bytes // bytes.length = length }} :
    (fixed length : Reader ε _) c = .ok bytes c' ↔ c.Passes (ofFixed bytes.val) c' := by
  simp only [fixed, bind_eq_ok, takeExactly_eq_ok, skipPadding_eq_ok, pure_eq_ok, ofFixed,
    Cursor.passes_append_iff, bytes.property]
  constructor
  · rintro ⟨_, c₁, h, -, c₂, hpad, rfl, rfl⟩
    exact ⟨c₁, h, hpad⟩
  · rintro ⟨c₁, h, hpad⟩
    exact ⟨bytes, c₁, h, (), c', hpad, rfl, rfl⟩

/-! ### Counts -/

/-- A length or a count that can be written and keeps to a limit, if there is one. -/
structure FitsCount (limit : Option Int) (count : Nat) : Prop where
  lt_bound : count < UInt32.size
  le_limit : ∀ bound ∈ limit, (count : Int) ≤ bound

lemma fitsCount_none_iff {count : Nat} : FitsCount none count ↔ count < UInt32.size :=
  ⟨fun h => h.lt_bound, fun h => ⟨h, by simp⟩⟩

lemma fitsCount_some_iff {limit : Int} {bound count : Nat} (hlimit : limit = bound)
    (hbound : bound < UInt32.size) : FitsCount limit count ↔ count ≤ bound := by
  constructor
  · intro h
    have hle := h.le_limit limit rfl
    omega
  · intro h
    refine ⟨by omega, ?_⟩
    rintro _ ⟨⟩
    omega

lemma toNat_ofNat_count {limit : Option Int} {count : Nat} (h : FitsCount limit count) :
    (UInt32.ofNat count).toNat = count :=
  UInt32.toNat_ofNat_of_lt' h.lt_bound

/-- A reader that goes on only within a limit. -/
lemma limited_eq_ok {limit : Option Int} {count : Nat} {fault : Int → WireFault}
    {next : Unit → Reader ε α} {a : α} :
    (match limit with
      | some bound =>
        if bound < (count : Int) then (fail (fault bound) >>= next : Reader ε α) else next ()
      | none => next ()) c = .ok a c' ↔
    (∀ bound ∈ limit, (count : Int) ≤ bound) ∧ next () c = .ok a c' := by
  cases limit with
  | none => simp
  | some bound =>
    by_cases h : bound < (count : Int)
    · simp [h, bind_eq_ok]
    · simp [h, Int.not_lt.1 h]

theorem counted_eq_ok {limit : Option Int} {bytes : Bytes} :
    (counted limit : Reader ε Bytes) c = .ok bytes c' ↔
      FitsCount limit bytes.length ∧ c.Passes (ofCounted bytes) c' := by
  simp only [counted, bind_eq_ok, uint32_eq_ok, ofCounted, Cursor.passes_append_iff]
  constructor
  · rintro ⟨n, c₁, hn, h⟩
    obtain ⟨hlimit, hnext⟩ := limited_eq_ok.1 h
    simp only [bind_eq_ok, fixed_eq_ok, pure_eq_ok] at hnext
    obtain ⟨taken, c₂, hpass, rfl, rfl⟩ := hnext
    -- the count that has been read is the length of what has been taken
    have hlen := taken.property
    refine ⟨⟨?_, ?_⟩, c₁, ?_, hpass⟩
    · rw [hlen]
      exact n.toNat_lt
    · rw [hlen]
      exact hlimit
    · rw [hlen, UInt32.ofNat_toNat]
      exact hn
  · rintro ⟨hfits, c₁, hn, h⟩
    have hlen := toNat_ofNat_count hfits
    refine ⟨_, c₁, hn, limited_eq_ok.2 ⟨?_, ?_⟩⟩
    · rw [hlen]
      exact hfits.le_limit
    · simp only [bind_eq_ok, fixed_eq_ok, pure_eq_ok]
      exact ⟨⟨bytes, hlen.symm⟩, c', h, rfl, rfl⟩

/-! ### Sequences and arrays -/

/-- A reader succeeds exactly in front of the written form of a value that fits, gives the value
and stops behind the form. -/
def Reads (read : Reader ε α) (Fits : α → Prop) (encode : α → Bytes) : Prop :=
  ∀ ⦃c a c'⦄, read c = .ok a c' ↔ Fits a ∧ c.Passes (encode a) c'

variable {read : Reader ε α} {Fits : α → Prop} {encode : α → Bytes}

lemma Reads.eq_ok (h : Reads read Fits encode) {a : α} :
    read c = .ok a c' ↔ Fits a ∧ c.Passes (encode a) c' :=
  @h c a c'

/-- The law for an optional value. -/
lemma Reads.optional (h : Reads read Fits encode) :
    Reads (optional read) (fun value => ∀ a ∈ value, Fits a) (ofOptional encode) := by
  intro c value c'
  simp only [Reader.optional, bind_eq_ok, boolean_eq_ok]
  constructor
  · rintro ⟨present, c₁, hpresent, hvalue⟩
    cases present with
    | false =>
      obtain ⟨rfl, rfl⟩ := pure_eq_ok.1 hvalue
      exact ⟨nofun, hpresent⟩
    | true =>
      simp only [if_true, bind_eq_ok, h.eq_ok, pure_eq_ok] at hvalue
      obtain ⟨a, c₂, ⟨hfits, hpass⟩, rfl, rfl⟩ := hvalue
      refine ⟨?_, hpresent.trans hpass⟩
      rintro _ ⟨⟩
      exact hfits
  · rintro ⟨hfits, hpass⟩
    cases value with
    | none => exact ⟨false, c', hpass, rfl⟩
    | some a =>
      obtain ⟨c₁, hpresent, ha⟩ := Cursor.passes_append_iff.1 hpass
      refine ⟨true, c₁, hpresent, ?_⟩
      simp only [if_true, bind_eq_ok, h.eq_ok, pure_eq_ok]
      exact ⟨a, c', ⟨hfits a rfl, ha⟩, rfl, rfl⟩

lemma times_eq_ok (hread : Reads read Fits encode) (hin : c.offset ≤ c.size) {count : Nat}
    {values : List α} :
    times count read c = .ok values c' ↔
      values.length = count ∧ (∀ value ∈ values, Fits value) ∧
        c.Passes (values.flatMap encode) c' := by
  induction count generalizing c values with
  | zero =>
    rw [times, pure_eq_ok, List.length_eq_zero_iff]
    constructor
    · rintro ⟨rfl, rfl⟩
      exact ⟨rfl, by simp, Cursor.Passes.refl hin⟩
    · rintro ⟨rfl, -, h⟩
      exact ⟨rfl, (Cursor.passes_nil_iff.1 h).2⟩
  | succ count ih =>
    simp only [times, bind_eq_ok, pure_eq_ok]
    constructor
    · rintro ⟨value, c₁, hvalue, rest, c₂, hrest, rfl, rfl⟩
      obtain ⟨hfits, hpass⟩ := hread.1 hvalue
      obtain ⟨hlen, hall, hpass'⟩ := (ih hpass.inside_right).1 hrest
      refine ⟨by rw [List.length_cons, hlen], List.forall_mem_cons.2 ⟨hfits, hall⟩, ?_⟩
      rw [List.flatMap_cons]
      exact hpass.trans hpass'
    · rintro ⟨hlen, hall, h⟩
      obtain ⟨value, rest, rfl⟩ := List.exists_cons_of_length_eq_add_one hlen
      obtain ⟨hfits, hall⟩ := List.forall_mem_cons.1 hall
      rw [List.flatMap_cons, Cursor.passes_append_iff] at h
      obtain ⟨c₁, hpass, hpass'⟩ := h
      have hrest := (ih hpass.inside_right).2 ⟨Nat.succ.inj hlen, hall, hpass'⟩
      exact ⟨value, c₁, hread.2 ⟨hfits, hpass⟩, rest, c', hrest, rfl, rfl⟩

/-- The law for an array whose elements, as far as they fit, take at least four bytes. -/
theorem array_eq_ok_of_fits (hread : Reads read Fits encode)
    (hmin : ∀ value, Fits value → 4 ≤ (encode value).length) {limit : Option Int}
    {values : List α} :
    array limit read c = .ok values c' ↔
      (FitsCount limit values.length ∧ ∀ value ∈ values, Fits value) ∧
        c.Passes (ofArray encode values) c' := by
  simp only [array, bind_eq_ok, uint32_eq_ok, ofArray, Cursor.passes_append_iff]
  constructor
  · rintro ⟨n, c₁, hn, h⟩
    obtain ⟨hlimit, hnext⟩ := limited_eq_ok.1 h
    simp only [bind_eq_ok, get_eq_ok] at hnext
    obtain ⟨_, _, ⟨rfl, rfl⟩, hnext⟩ := hnext
    split_ifs at hnext with hroom
    · simp [bind_eq_ok] at hnext
    · obtain ⟨hlen, hall, hpass⟩ := (times_eq_ok hread hn.inside_right).1 hnext
      refine ⟨⟨⟨?_, ?_⟩, hall⟩, c₁, ?_, hpass⟩
      · rw [hlen]
        exact n.toNat_lt
      · rw [hlen]
        exact hlimit
      · rw [hlen, UInt32.ofNat_toNat]
        exact hn
  · rintro ⟨⟨hfits, hall⟩, c₁, hn, hpass⟩
    have hlen := toNat_ofNat_count hfits
    refine ⟨_, c₁, hn, limited_eq_ok.2 ⟨?_, ?_⟩⟩
    · rw [hlen]
      exact hfits.le_limit
    · simp only [bind_eq_ok, get_eq_ok]
      refine ⟨c₁, c₁, ⟨rfl, rfl⟩, ?_⟩
      -- elements of four bytes or more cannot be outnumbered by a quarter of the bytes left
      have hroom : ¬c₁.remaining < (values.length : Int) * 4 := by
        have hahead := Cursor.length_ahead hpass.inside
        have hlarge := four_mul_length_le fun value hvalue => hmin value (hall value hvalue)
        rw [hpass.ahead_eq, List.length_append] at hahead
        rw [Cursor.remaining]
        omega
      rw [hlen, if_neg hroom]
      exact (times_eq_ok hread hn.inside_right).2 ⟨rfl, hall, hpass⟩

theorem array_eq_ok (hread : Reads read Fits encode)
    (hmin : ∀ value, 4 ≤ (encode value).length) {limit : Option Int}
    {values : List α} :
    array limit read c = .ok values c' ↔
      (FitsCount limit values.length ∧ ∀ value ∈ values, Fits value) ∧
        c.Passes (ofArray encode values) c' :=
  array_eq_ok_of_fits hread fun value _ => hmin value

end Reader

end ContractInterface.Xdr
