import FactCube.Proofs.Rounding

/-!
# Integers and floats in one order

An integer is compared with a float through the float nearest to it. Rounding keeps the order of
integers, but beyond `2^53` it makes one float of several integers, which all compare as equal to
it and not to one another. So the order of values is lawful on a set of values exactly where an
integer is equal to a float only as the same number; this is so for integers of size at most `2^53`.

Results:
* `Value.lawfulOn_iff`: where the order of values is lawful.
* `Value.not_lawfulOn_finite`: it is not lawful on all values with finite floats.
-/

namespace FactCube.Value

open Binary64 (isFinite toRat ofInt)

/-! ## Laws of an order -/

/-- Whether an integer of a set is equal to a float of the set only as the same number. -/
def ExactOn (S : Set Value) : Prop :=
  ∀ n x, .integer n ∈ S → .float x ∈ S → (integer n).same (.float x) = true → toRat x = n

/-- The laws of the order of values on a set of values. -/
structure LawfulOn (S : Set Value) : Prop where
  /-- The answer turns round with the values. -/
  swap : ∀ a ∈ S, ∀ b ∈ S, a.compare b = (b.compare a).swap
  /-- What is at most a value is at most all values above it. -/
  trans : ∀ a ∈ S, ∀ b ∈ S, ∀ c ∈ S,
    (a.compare b).isLE = true → (b.compare c).isLE = true → (a.compare c).isLE = true
  /-- To compare as equal is an equivalence. -/
  equivalence : Equivalence fun a b : S => a.1.same b.1 = true
  /-- Equal values compare alike with every value. -/
  congr : ∀ a ∈ S, ∀ b ∈ S, a.same b = true → ∀ c ∈ S, a.compare c = b.compare c
  /-- An integer is equal to a float only as the same number. -/
  exactOn : ExactOn S

/-! ## Kinds of values -/

/-- The kind of a value: its type, integers and floats being of one kind. -/
def kind : Value → Nat
  | .string _ => 0
  | .integer _ => 1
  | .float _ => 1
  | .boolean _ => 2
  | .date _ => 3

/-- Values of different kinds are compared by their kinds. -/
theorem compare_of_kind_lt {a b : Value} (h : a.kind < b.kind) : a.compare b = .lt := by
  cases a <;> cases b <;> first | rfl | simp [kind] at h

theorem kind_le_of_isLE {a b : Value} (h : (a.compare b).isLE = true) : a.kind ≤ b.kind := by
  by_contra hlt
  rw [compare_swap, compare_of_kind_lt (by omega)] at h
  cases h

/-! ## Places of numbers -/

/-- The place at which a number is compared with a float. -/
def position : Value → Int
  | .integer n => Binary64.position (ofInt n)
  | .float x => Binary64.position x
  | _ => 0

/-- Numbers in order are at places in order, the place of an integer being rounded. -/
theorem position_le_of_isLE {a b : Value} (ha : a.kind = 1) (hb : b.kind = 1)
    (h : (a.compare b).isLE = true) : a.position ≤ b.position := by
  cases a <;> cases b <;> try (simp [kind] at ha hb; done)
  case integer.integer m n =>
    exact Binary64.position_ofInt_mono (Int.isLE_compare.1 h)
  all_goals exact Int.isLE_compare.1 h

/-- Unless both are integers, numbers are compared by their places. -/
theorem compare_eq_compare_position {a b : Value} (ha : a.kind = 1) (hb : b.kind = 1)
    (hfloat : a.dataType = .float ∨ b.dataType = .float) :
    a.compare b = Ord.compare a.position b.position := by
  cases a <;> cases b <;> first | rfl | (simp [kind] at ha hb; done) | simp [dataType] at hfloat

theorem same_iff_position_eq {a b : Value} (ha : a.kind = 1) (hb : b.kind = 1)
    (hfloat : a.dataType = .float ∨ b.dataType = .float) :
    a.same b = true ↔ a.position = b.position := by
  rw [same, compare_eq_compare_position ha hb hfloat, beq_iff_eq,
    Std.LawfulEqOrd.compare_eq_iff_eq]

theorem exists_of_kind_eq_one {a : Value} (h : a.kind = 1) :
    (∃ n, a = .integer n) ∨ ∃ x, a = .float x := by
  cases a with
  | integer n => exact .inl ⟨n, rfl⟩
  | float x => exact .inr ⟨x, rfl⟩
  | string _ => simp [kind] at h
  | boolean _ => simp [kind] at h
  | date _ => simp [kind] at h

/-! ## Where the order is lawful -/

section Exact

variable {S : Set Value}

/-- Two integers that one float is between are in order: were they the other way round, rounding
would put all three at one place. -/
theorem isLE_of_between {m n : Int} {x : Float}
    (hm : (integer m).same (.float x) = true → toRat x = m)
    (hn : (integer n).same (.float x) = true → toRat x = n)
    (hmx : ((integer m).compare (.float x)).isLE = true)
    (hxn : ((float x).compare (.integer n)).isLE = true) :
    ((integer m).compare (.integer n)).isLE = true := by
  refine Int.isLE_compare.2 ?_
  by_contra hlt
  have hback := Binary64.position_ofInt_mono (show n ≤ m by omega)
  have h₁ := position_le_of_isLE rfl rfl hmx
  have h₂ := position_le_of_isLE rfl rfl hxn
  simp only [position] at h₁ h₂
  have hsame_m := hm ((same_iff_position_eq rfl rfl (.inr rfl)).2 (by simp only [position]; omega))
  have hsame_n := hn ((same_iff_position_eq rfl rfl (.inr rfl)).2 (by simp only [position]; omega))
  have heq : m = n := by exact_mod_cast hsame_m.symm.trans hsame_n
  omega

/-- Numbers of a set are ordered transitively where equal ones are the same number. -/
theorem isLE_trans_numbers (hexact : ExactOn S) {a b c : Value} (haS : a ∈ S) (hbS : b ∈ S)
    (hcS : c ∈ S) (ha : a.kind = 1) (hb : b.kind = 1) (hc : c.kind = 1)
    (hab : (a.compare b).isLE = true)
    (hbc : (b.compare c).isLE = true) : (a.compare c).isLE = true := by
  by_cases hfloat : a.dataType = .float ∨ c.dataType = .float
  · rw [compare_eq_compare_position ha hc hfloat]
    exact Int.isLE_compare.2
      ((position_le_of_isLE ha hb hab).trans (position_le_of_isLE hb hc hbc))
  · obtain ⟨m, rfl⟩ : ∃ m, a = .integer m :=
      (exists_of_kind_eq_one ha).resolve_right fun ⟨_, hx⟩ => hfloat (.inl (hx ▸ rfl))
    obtain ⟨n, rfl⟩ : ∃ n, c = .integer n :=
      (exists_of_kind_eq_one hc).resolve_right fun ⟨_, hx⟩ => hfloat (.inr (hx ▸ rfl))
    obtain ⟨k, rfl⟩ | ⟨x, rfl⟩ := exists_of_kind_eq_one hb
    · exact Std.TransOrd.isLE_trans hab hbc
    · exact isLE_of_between (hexact m x haS hbS) (hexact n x hcS hbS) hab hbc

/-- The comparison of the values of a set. -/
def compareIn (S : Set Value) (a b : S) : Ordering := a.1.compare b.1

/-- The order is transitive on a set of values where equal numbers are the same: across kinds by the
kinds, among numbers by their places, and within another kind as the order of one type. -/
theorem transCmp_of_exactOn (hexact : ExactOn S) : Std.TransCmp (compareIn S) where
  eq_swap {a b} := compare_swap a.1 b.1
  isLE_trans {a b c} hab hbc := by
    obtain ⟨a, haS⟩ := a
    obtain ⟨b, hbS⟩ := b
    obtain ⟨c, hcS⟩ := c
    have h₁ := kind_le_of_isLE hab
    have h₂ := kind_le_of_isLE hbc
    simp only [compareIn] at h₁ h₂ hab hbc ⊢
    by_cases hlt : a.kind < c.kind
    · rw [compare_of_kind_lt hlt]
      rfl
    by_cases hone : a.kind = 1
    · exact isLE_trans_numbers hexact haS hbS hcS hone (by omega) (by omega) hab hbc
    · have htype : ∀ {v : Value}, v.kind = a.kind → a.dataType = v.dataType := by
        intro v hv
        cases a <;> cases v <;> first | rfl | simp [kind] at hv hone
      have hb := htype (show b.kind = a.kind by omega)
      have hc := htype (show c.kind = a.kind by omega)
      rw [← groupOrder_eq_compare hb] at hab
      rw [← groupOrder_eq_compare (hb.symm.trans hc)] at hbc
      rw [← groupOrder_eq_compare hc]
      exact Std.TransCmp.isLE_trans hab hbc

theorem lawfulOn_of_exactOn (hexact : ExactOn S) : LawfulOn S := by
  have htrans := transCmp_of_exactOn hexact
  have hsame (a b : S) : a.1.same b.1 = true ↔ compareIn S a b = .eq := beq_iff_eq
  refine ⟨fun a _ b _ => compare_swap a b, ?trans, ⟨?refl, ?symm, ?eq_trans⟩, ?congr, hexact⟩
  case trans =>
    intro a ha b hb c hc hab hbc
    exact @Std.TransCmp.isLE_trans _ (compareIn S) _ ⟨a, ha⟩ ⟨b, hb⟩ ⟨c, hc⟩ hab hbc
  case refl =>
    intro a
    exact (hsame a a).2 Std.ReflCmp.compare_self
  case symm =>
    intro a b h
    exact (hsame b a).2 (Std.OrientedCmp.eq_symm ((hsame a b).1 h))
  case eq_trans =>
    intro a b c hab hbc
    exact (hsame a c).2 (Std.TransCmp.eq_trans ((hsame a b).1 hab) ((hsame b c).1 hbc))
  case congr =>
    intro a ha b hb h c hc
    exact @Std.TransCmp.congr_left _ (compareIn S) _ ⟨a, ha⟩ ⟨b, hb⟩ ⟨c, hc⟩
      ((hsame ⟨a, ha⟩ ⟨b, hb⟩).1 h)

/-- Integers of size at most `2^53` are equal to a finite float only as the same number. -/
theorem exactOn_of_natAbs_le (hfinite : ∀ x, .float x ∈ S → isFinite x = true)
    (hle : ∀ n, .integer n ∈ S → n.natAbs ≤ 2 ^ 53) : ExactOn S := by
  intro n x hn hx h
  have hposition := (same_iff_position_eq rfl rfl (.inr rfl)).1 h
  have hnumber := Binary64.isNotNumber_of_isFinite (hfinite x hx)
  rw [← Binary64.toRat_ofInt (hle n hn)]
  exact (Binary64.toRat_eq_of_position_eq (Binary64.isNotNumber_ofInt n) hnumber hposition).symm

/-- On values whose floats are finite, floats are ordered as the numbers they are and an integer is
beside a float what it is rounded to. The order is lawful exactly where an integer is equal to a
float only as the same number, and so on integers of size at most `2^53`. -/
theorem lawfulOn_iff (hfinite : ∀ x, .float x ∈ S → isFinite x = true) :
    (∀ x y, .float x ∈ S → .float y ∈ S →
      (float x).compare (.float y) = Ord.compare (toRat x) (toRat y)) ∧
    (∀ n x, .float x ∈ S →
      (integer n).compare (.float x) = Ord.compare (toRat (ofInt n)) (toRat x)) ∧
    (LawfulOn S ↔ ExactOn S) ∧
    ((∀ n, .integer n ∈ S → n.natAbs ≤ 2 ^ 53) → LawfulOn S) := by
  have hnumber : ∀ x, .float x ∈ S → Binary64.isNotNumber x = false := fun x hx =>
    Binary64.isNotNumber_of_isFinite (hfinite x hx)
  refine ⟨fun x y hx hy => ?floats, fun n x hx => ?mixed, ⟨LawfulOn.exactOn, lawfulOn_of_exactOn⟩,
    fun hle => lawfulOn_of_exactOn (exactOn_of_natAbs_le hfinite hle)⟩
  case floats => exact Binary64.compare_position (hnumber x hx) (hnumber y hy)
  case mixed => exact Binary64.compare_position (Binary64.isNotNumber_ofInt n) (hnumber x hx)

end Exact

/-- A set with a number of both types, one more float and values of other kinds. -/
def sampleValues : Set Value :=
  {.integer 3, .float (ofInt 3), .float (Binary64.make true 1), .string "a", .boolean true}

theorem lawfulOn_iff_sample :
    (∀ x, .float x ∈ sampleValues → isFinite x = true) ∧
      (∀ n, .integer n ∈ sampleValues → n.natAbs ≤ 2 ^ 53) ∧
      (integer 3).compare (.float (Binary64.make true 1)) =
        Ord.compare (toRat (ofInt 3)) (toRat (Binary64.make true 1)) ∧
      LawfulOn sampleValues := by
  have hfinite : ∀ x, .float x ∈ sampleValues → isFinite x = true := by
    simp only [sampleValues, Set.mem_insert_iff, Set.mem_singleton_iff, reduceCtorEq, false_or,
      or_false, float.injEq]
    rintro x (rfl | rfl) <;> decide
  have hle : ∀ n, .integer n ∈ sampleValues → n.natAbs ≤ 2 ^ 53 := by
    simp only [sampleValues, Set.mem_insert_iff, Set.mem_singleton_iff, reduceCtorEq, or_false,
      integer.injEq]
    rintro n rfl
    decide
  obtain ⟨-, hmixed, -, hlawful⟩ := lawfulOn_iff hfinite
  exact ⟨hfinite, hle, hmixed 3 _ (by simp [sampleValues]), hlawful hle⟩

/-- Beyond `2^53` the order is not transitive: `2^53 + 1` is equal to the float `2^53`, and that to
the integer `2^53`, which is less. -/
theorem not_lawfulOn_finite : ¬LawfulOn {v | ∀ x, v = .float x → isFinite x = true} := by
  intro h
  have htrans := h.trans (.integer (2 ^ 53 + 1)) (by simp) (.float (ofInt (2 ^ 53)))
    (by rintro x ⟨⟩; decide) (.integer (2 ^ 53)) (by simp) (by decide) (by decide)
  exact absurd htrans (by decide)

end FactCube.Value
