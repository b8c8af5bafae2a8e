/-
# Bits

The bits of a number and of a byte string, most significant first, and lists that differ in a few
neighbouring places.  The main results are

* `Bytes.bits_eq_bitsOf`: the bits of a byte string are those of the number it stands for;
* `Bytes.bits_injective`: a byte string is determined by its bits;
* `ChangedAt.flatMap`: a change of neighbouring elements changes neighbouring bits.
-/
import ContractInterface.Proofs.Bytes.Number

namespace ContractInterface

/-! ### Lists of pieces of one length -/

section Pieces

variable {α β : Type} {f : α → List β} {size : Nat}

lemma length_pieces (hf : ∀ a, (f a).length = size) (list : List α) :
    (list.flatMap f).length = size * list.length := by
  induction list with
  | nil => rfl
  | cons a list ih =>
    rw [List.flatMap_cons, List.length_append, hf, ih, List.length_cons]
    ring

lemma take_pieces (hf : ∀ a, (f a).length = size) (n : Nat) (list : List α) :
    (list.flatMap f).take (size * n) = (list.take n).flatMap f := by
  induction n generalizing list with
  | zero => simp
  | succ n ih =>
    cases list with
    | nil => simp
    | cons a list =>
      have hsum : size * (n + 1) = (f a).length + size * n := by
        rw [hf]
        ring
      rw [List.flatMap_cons, hsum, List.take_length_add_append, ih, List.take_succ_cons,
        List.flatMap_cons]

lemma drop_pieces (hf : ∀ a, (f a).length = size) (n : Nat) (list : List α) :
    (list.flatMap f).drop (size * n) = (list.drop n).flatMap f := by
  induction n generalizing list with
  | zero => simp
  | succ n ih =>
    cases list with
    | nil => simp
    | cons a list =>
      have hsum : size * (n + 1) = (f a).length + size * n := by
        rw [hf]
        ring
      rw [List.flatMap_cons, hsum, List.drop_length_add_append, ih, List.drop_succ_cons]

/-- A list is determined by its pieces if each element is determined by its piece. -/
lemma eq_of_pieces_eq (hf : ∀ a, (f a).length = size) (hsize : 0 < size) {list list' : List α}
    (hinj : ∀ a ∈ list, ∀ a' ∈ list', f a = f a' → a = a')
    (h : list.flatMap f = list'.flatMap f) : list = list' := by
  have hlen : list.length = list'.length := by
    have hlen := congrArg List.length h
    rw [length_pieces hf, length_pieces hf] at hlen
    exact Nat.eq_of_mul_eq_mul_left hsize hlen
  induction list generalizing list' with
  | nil => exact (List.length_eq_zero_iff.1 hlen.symm).symm
  | cons a list ih =>
    obtain ⟨a', list', rfl⟩ := List.exists_cons_of_length_eq_add_one hlen.symm
    rw [List.flatMap_cons, List.flatMap_cons] at h
    obtain ⟨hhead, htail⟩ := List.append_inj h (by rw [hf, hf])
    rw [hinj a List.mem_cons_self a' List.mem_cons_self hhead,
      ih (fun b hb b' hb' => hinj b (List.mem_cons_of_mem _ hb) b' (List.mem_cons_of_mem _ hb'))
        htail (Nat.succ.inj hlen)]

end Pieces

/-! ### Bits of numbers -/

/-- The last `count` bits of a number, most significant first. -/
def bitsOf : (count n : Nat) → List Bool
  | 0, _ => []
  | count + 1, n => bitsOf count (n / 2) ++ [n.testBit 0]

@[simp] lemma length_bitsOf (count n : Nat) : (bitsOf count n).length = count := by
  induction count generalizing n with
  | zero => rfl
  | succ count ih => simp [bitsOf, ih]

/-- The bits of a number are those of its high part and then those of its low part. -/
lemma bitsOf_add (high low n : Nat) :
    bitsOf (high + low) n = bitsOf high (n / 2 ^ low) ++ bitsOf low n := by
  induction low generalizing n with
  | zero => simp [bitsOf]
  | succ low ih =>
    have hquot : n / 2 / 2 ^ low = n / 2 ^ (low + 1) := by
      rw [Nat.div_div_eq_div_mul, Nat.pow_succ']
    rw [← Nat.add_assoc, bitsOf, ih, hquot, bitsOf, List.append_assoc]

/-- Numbers have the same last bits if they are the same modulo a power of two. -/
lemma bitsOf_eq_iff {count m n : Nat} :
    bitsOf count m = bitsOf count n ↔ m % 2 ^ count = n % 2 ^ count := by
  induction count generalizing m n with
  | zero => simp [bitsOf, Nat.mod_one]
  | succ count ih =>
    have hm : m % 2 ^ (count + 1) = m % 2 + 2 * (m / 2 % 2 ^ count) := by
      rw [Nat.pow_succ', Nat.mod_mul]
    have hn : n % 2 ^ (count + 1) = n % 2 + 2 * (n / 2 % 2 ^ count) := by
      rw [Nat.pow_succ', Nat.mod_mul]
    have hlast : [m.testBit 0] = [n.testBit 0] ↔ m % 2 = n % 2 := by
      simp only [Nat.testBit_zero, List.cons.injEq, and_true, decide_eq_decide]
      omega
    have hsplit : bitsOf (count + 1) m = bitsOf (count + 1) n ↔
        bitsOf count (m / 2) = bitsOf count (n / 2) ∧ [m.testBit 0] = [n.testBit 0] :=
      ⟨fun h => List.append_inj' h rfl, fun ⟨hhigh, hlow⟩ => congrArg₂ (· ++ ·) hhigh hlow⟩
    rw [hsplit, hlast, ih, hm, hn]
    omega

lemma bitsOf_mod (count n : Nat) : bitsOf count (n % 2 ^ count) = bitsOf count n :=
  bitsOf_eq_iff.2 (Nat.mod_mod _ _)

/-- The bits of several numbers that fit their width are those of the number that they are the
digits of. -/
lemma flatMap_bitsOf {size : Nat} {values : List Nat} (h : ∀ value ∈ values, value < 2 ^ size) :
    values.flatMap (bitsOf size) =
      bitsOf (size * values.length) (values.foldl (fun n value => n * 2 ^ size + value) 0) := by
  induction values using List.reverseRecOn with
  | nil => rfl
  | append_singleton values value ih =>
    have hvalue := h value (by simp)
    have hlen : size * (values ++ [value]).length = size * values.length + size := by
      rw [List.length_append, List.length_singleton]
      ring
    have hhigh (n : Nat) : (n * 2 ^ size + value) / 2 ^ size = n := by
      rw [Nat.mul_comm, Nat.mul_add_div (Nat.two_pow_pos size), Nat.div_eq_of_lt hvalue,
        Nat.add_zero]
    have hlow (n : Nat) : (n * 2 ^ size + value) % 2 ^ size = value % 2 ^ size := by
      rw [Nat.mul_comm, Nat.mul_add_mod]
    rw [List.flatMap_append, ih fun value hmem => h value (by simp [hmem]), hlen, bitsOf_add,
      List.foldl_append, List.foldl_cons, List.foldl_nil, hhigh, bitsOf_eq_iff.2 (hlow _),
      List.flatMap_singleton]

/-! ### Bits of byte strings -/

namespace Bytes

/-- The bits of a byte string. -/
def bits (bytes : Bytes) : List Bool :=
  bytes.flatMap fun byte => bitsOf 8 byte.toNat

@[simp] lemma bits_nil : bits [] = [] := rfl

@[simp] lemma bits_append (front back : Bytes) : bits (front ++ back) = bits front ++ bits back :=
  List.flatMap_append

lemma bits_cons (byte : UInt8) (bytes : Bytes) :
    bits (byte :: bytes) = bitsOf 8 byte.toNat ++ bits bytes :=
  List.flatMap_cons

@[simp] lemma length_bits (bytes : Bytes) : (bits bytes).length = 8 * bytes.length :=
  length_pieces (fun _ => length_bitsOf 8 _) bytes

/-- The bits of a byte string are those of the number it stands for. -/
theorem bits_eq_bitsOf (bytes : Bytes) : bits bytes = bitsOf (8 * bytes.length) (toNat bytes) := by
  have hlt : ∀ value ∈ bytes.map UInt8.toNat, value < 2 ^ 8 := by
    intro value hmem
    obtain ⟨byte, -, rfl⟩ := List.mem_map.1 hmem
    exact byte.toNat_lt
  have h := flatMap_bitsOf hlt
  rwa [List.flatMap_map, List.length_map, List.foldl_map] at h

lemma eq_of_bitsOf_eq {byte byte' : UInt8} (h : bitsOf 8 byte.toNat = bitsOf 8 byte'.toNat) :
    byte = byte' := by
  have hmod := bitsOf_eq_iff.1 h
  have hlt := byte.toNat_lt
  have hlt' := byte'.toNat_lt
  exact UInt8.toNat.inj (by omega)

/-- A byte string is determined by its bits. -/
theorem bits_injective {bytes bytes' : Bytes} (h : bits bytes = bits bytes') : bytes = bytes' :=
  eq_of_pieces_eq (fun _ => length_bitsOf 8 _) (by decide) (fun _ _ _ _ => eq_of_bitsOf_eq) h

end Bytes

/-! ### Changes of neighbouring places -/

variable {α β : Type} {first count : Nat} {old new : List α}

/-- `new` is `old` with changes in some of the `count` places from `first` on, and nowhere else. -/
structure ChangedAt (first count : Nat) (old new : List α) : Prop where
  length_eq : new.length = old.length
  front : new.take first = old.take first
  back : new.drop (first + count) = old.drop (first + count)

namespace ChangedAt

instance [DecidableEq α] : Decidable (ChangedAt first count old new) :=
  decidable_of_iff
    (new.length = old.length ∧ new.take first = old.take first ∧
      new.drop (first + count) = old.drop (first + count))
    ⟨fun ⟨hlen, hfront, hback⟩ => ⟨hlen, hfront, hback⟩, fun h => ⟨h.length_eq, h.front, h.back⟩⟩

/-- A change stays one if more places are allowed. -/
lemma mono (h : ChangedAt first count old new) (first' count' : Nat) (hfirst : first' ≤ first)
    (hlast : first + count ≤ first' + count') : ChangedAt first' count' old new where
  length_eq := h.length_eq
  front := by
    have hmin : min first' first = first' := Nat.min_eq_left hfirst
    have hfront := congrArg (List.take first') h.front
    rwa [List.take_take, List.take_take, hmin] at hfront
  back := by
    have hsum : first + count + (first' + count' - (first + count)) = first' + count' := by omega
    have hback := congrArg (List.drop (first' + count' - (first + count))) h.back
    rwa [List.drop_drop, List.drop_drop, hsum] at hback

/-- A change of elements with equally many bits each is a change of these bits. -/
lemma flatMap (h : ChangedAt first count old new) {f : α → List β} {size : Nat}
    (hf : ∀ a, (f a).length = size) :
    ChangedAt (size * first) (size * count) (old.flatMap f) (new.flatMap f) := by
  refine ⟨?_, ?_, ?_⟩
  · rw [length_pieces hf, length_pieces hf, h.length_eq]
  · rw [take_pieces hf, take_pieces hf, h.front]
  · rw [← Nat.mul_add, drop_pieces hf, drop_pieces hf, h.back]

variable {old' new' : List α}

/-- A change within the first of two parts leaves the second part. -/
lemma of_append_left (h : ChangedAt first count (old ++ old') (new ++ new'))
    (hlen : new.length = old.length) (hlast : first + count ≤ old.length) :
    ChangedAt first count old new ∧ new' = old' := by
  have hfront := h.front
  have hback := h.back
  have hlast' : first + count ≤ new.length := by omega
  have hfirst : first ≤ old.length := by omega
  have hfirst' : first ≤ new.length := by omega
  rw [List.take_append_of_le_length hfirst', List.take_append_of_le_length hfirst] at hfront
  rw [List.drop_append_of_le_length hlast', List.drop_append_of_le_length hlast] at hback
  have hlendrop : (new.drop (first + count)).length = (old.drop (first + count)).length := by
    rw [List.length_drop, List.length_drop, hlen]
  obtain ⟨hdrop, htail⟩ := List.append_inj hback hlendrop
  exact ⟨⟨hlen, hfront, hdrop⟩, htail⟩

/-- A change behind the first of two parts leaves that part. -/
lemma eq_of_append_right (h : ChangedAt first count (old ++ old') (new ++ new'))
    (hlen : new.length = old.length) (hfirst : old.length ≤ first) : new = old := by
  have hfront := congrArg (List.take old.length) h.front
  have hmin : min old.length first = old.length := Nat.min_eq_left hfirst
  rw [List.take_take, List.take_take, hmin, List.take_left, ← hlen, List.take_left] at hfront
  exact hfront

/-- A change across the border of two parts. -/
lemma across (h : ChangedAt first count (old ++ old') (new ++ new'))
    (hlen : new.length = old.length) (hfirst : first ≤ old.length)
    (hlast : old.length ≤ first + count) :
    new.take first = old.take first ∧
      new'.drop (first + count - old.length) = old'.drop (first + count - old.length) := by
  have hfront := h.front
  have hback := h.back
  have hfirst' : first ≤ new.length := by omega
  have hsum : first + count = old.length + (first + count - old.length) := by omega
  have hsum' : first + count = new.length + (first + count - old.length) := by omega
  rw [List.take_append_of_le_length hfirst', List.take_append_of_le_length hfirst] at hfront
  refine ⟨hfront, ?_⟩
  rw [hsum, List.drop_length_add_append] at hback
  rw [← hback, ← hlen, List.drop_length_add_append]

/-- Only the part between what stays in front and what stays behind has changed. -/
lemma exists_middle (h : ChangedAt first count old new) :
    ∃ front middle middle' back, old = front ++ (middle ++ back) ∧
      new = front ++ (middle' ++ back) ∧ middle.length ≤ count ∧
      middle.length = middle'.length := by
  have hsplit (list : List α) :
      list = list.take first ++ ((list.drop first).take count ++ list.drop (first + count)) := by
    rw [← List.drop_drop, List.take_append_drop, List.take_append_drop]
  refine ⟨old.take first, (old.drop first).take count, (new.drop first).take count,
    old.drop (first + count), hsplit old, ?_, ?_, ?_⟩
  · rw [← h.front, ← h.back]
    exact hsplit new
  · rw [List.length_take]
    exact Nat.min_le_left _ _
  · rw [List.length_take, List.length_take, List.length_drop, List.length_drop, h.length_eq]

end ChangedAt

end ContractInterface
