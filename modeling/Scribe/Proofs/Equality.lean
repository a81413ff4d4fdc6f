import Mathlib.Algebra.Order.Field.Rat
import Mathlib.Tactic.Ring
import Scribe.Program.Same
import Scribe.Proofs.Paired

/-!
# Equality is an equivalence

`Program.same_symm` and `Program.same_trans`: numbers of all kinds are equal by value, entities by
their details to any depth, and trees slot by slot. What is one thing for all numbers does not tell
equal scalars apart (`Scalar.congr_of_same`).
-/

namespace Scribe

namespace Digits

variable {a b c : Digits}

def value (d : Digits) : ℚ := d.coefficient * (10 : ℚ) ^ d.exponent

theorem aligned_value (d : Digits) {place : Int} (h : place ≤ d.exponent) :
    (d.aligned place : ℚ) * (10 : ℚ) ^ place = d.value := by
  have hexp : d.exponent = ((d.exponent - place).toNat : Int) + place := by omega
  have hten : (10 : ℚ) ≠ 0 := by norm_num
  unfold aligned value
  rw [hexp, zpow_add₀ hten, zpow_natCast, ← hexp, Nat.pow_eq]
  push_cast
  ring

theorem aligned_eq_iff :
    a.aligned (min a.exponent b.exponent) = b.aligned (min a.exponent b.exponent) ↔
      a.value = b.value := by
  rw [← a.aligned_value (min_le_left _ b.exponent), ← b.aligned_value (min_le_right a.exponent _)]
  have hten : (10 : ℚ) ^ min a.exponent b.exponent ≠ 0 := zpow_ne_zero _ (by norm_num)
  rw [mul_left_inj' hten, Nat.cast_inj]

theorem same_iff : a.same b = true ↔
    (a.coefficient = 0 ∧ b.coefficient = 0) ∨
      (a.coefficient ≠ 0 ∧ b.coefficient ≠ 0 ∧ a.order = b.order ∧ a.value = b.value) := by
  unfold same
  split_ifs with h
  · rw [beq_iff_eq]
    omega
  · rw [Bool.and_eq_true, beq_iff_eq, beq_iff_eq, aligned_eq_iff]
    tauto

theorem same_symm (h : a.same b = true) : b.same a = true := by
  rw [same_iff] at h ⊢
  rcases h with ⟨ha, hb⟩ | ⟨ha, hb, ho, hv⟩
  · exact .inl ⟨hb, ha⟩
  · exact .inr ⟨hb, ha, ho.symm, hv.symm⟩

theorem same_trans (h : a.same b = true) (h' : b.same c = true) : a.same c = true := by
  rw [same_iff] at h h' ⊢
  rcases h with ⟨ha, hb⟩ | ⟨ha, hb, ho, hv⟩ <;> rcases h' with ⟨hb', hc⟩ | ⟨hb', hc, ho', hv'⟩
  · exact .inl ⟨ha, hc⟩
  · exact absurd hb hb'
  · exact absurd hb' hb
  · exact .inr ⟨ha, hc, ho.trans ho', hv.trans hv'⟩

theorem coefficient_eq_zero (h : a.same b = true) : a.coefficient = 0 ↔ b.coefficient = 0 := by
  rcases same_iff.1 h with ⟨ha, hb⟩ | ⟨ha, hb, -, -⟩
  · exact iff_of_true ha hb
  · exact iff_of_false ha hb

end Digits

namespace Scalar

namespace Magnitude

variable {a b c : Magnitude}

theorem same_symm (h : a.same b = true) : b.same a = true := by
  cases a <;> cases b <;> simp only [same, Bool.and_eq_true, Bool.or_eq_true, beq_iff_eq] at h ⊢
  case finite.finite =>
    obtain ⟨hs, hn⟩ := h
    exact ⟨Digits.same_symm hs, hn.imp Eq.symm (Digits.coefficient_eq_zero hs).1⟩
  case infinite.infinite | nan.nan => exact h.symm
  all_goals cases h

theorem same_trans (h : a.same b = true) (h' : b.same c = true) : a.same c = true := by
  cases a <;> cases b <;> simp only [same, Bool.and_eq_true, Bool.or_eq_true, beq_iff_eq] at h <;>
    try cases h
  all_goals cases c <;> simp only [same, Bool.and_eq_true, Bool.or_eq_true, beq_iff_eq] at h' ⊢ <;>
    try cases h'
  case finite.finite.intro.finite.intro hs hn _ _ hs' hn' =>
    refine ⟨Digits.same_trans hs hs', ?_⟩
    have hz := Digits.coefficient_eq_zero hs
    rcases hn with rfl | hn
    · exact hn'.imp id hz.2
    · exact .inr hn
  all_goals rfl

end Magnitude

variable {a b c : Scalar}

theorem same_symm (h : a.same b = true) : b.same a = true := by
  unfold same at h ⊢
  cases ha : a.magnitude? <;> cases hb : b.magnitude? <;> simp only [ha, hb] at h ⊢
  case none.none => exact beq_iff_eq.2 (beq_iff_eq.1 h).symm
  case some.some => exact Magnitude.same_symm h
  all_goals cases h

theorem same_trans (h : a.same b = true) (h' : b.same c = true) : a.same c = true := by
  unfold same at h h' ⊢
  cases ha : a.magnitude? <;> cases hb : b.magnitude? <;> simp only [ha, hb] at h h'
  case none.none => exact beq_iff_eq.1 h ▸ hb ▸ h'
  case some.some =>
    cases hc : c.magnitude? <;> simp only [hc] at h' ⊢
    · cases h'
    · exact Magnitude.same_trans h h'
  all_goals cases h

/-- Scalars are the same if they are identical, or numbers of one magnitude. -/
theorem same_cases (h : a.same b = true) : a = b ∨
    ∃ m n, a.magnitude? = some m ∧ b.magnitude? = some n ∧ m.same n = true := by
  unfold same at h
  cases ha : a.magnitude? <;> cases hb : b.magnitude? <;> simp only [ha, hb] at h
  case none.none => exact .inl (beq_iff_eq.1 h)
  case some.some => exact .inr ⟨_, _, rfl, rfl, h⟩
  all_goals cases h

/-- What is one thing for all numbers does not tell scalars apart that are the same. -/
theorem congr_of_same {α : Type} {f : Scalar → α} (x : α)
    (hf : ∀ s m, s.magnitude? = some m → f s = x) (h : a.same b = true) : f a = f b := by
  rcases same_cases h with rfl | ⟨m, n, ha, hb, -⟩
  · rfl
  · rw [hf a m ha, hf b n hb]

/-- Nothing is the same as an empty slot but an empty slot. -/
theorem null_cases (h : a.same b = true) : a = .null ∧ b = .null ∨ a ≠ .null ∧ b ≠ .null := by
  rcases same_cases h with rfl | ⟨m, n, ha, hb, -⟩
  · by_cases hn : a = .null
    · exact .inl ⟨hn, hn⟩
    · exact .inr ⟨hn, hn⟩
  · exact .inr ⟨fun hn => by simp [hn, magnitude?] at ha, fun hn => by simp [hn, magnitude?] at hb⟩

/-- Whether a number counts as given. -/
def Magnitude.isSet : Magnitude → Bool
  | .finite _ size => size.coefficient != 0
  | _ => true

theorem Magnitude.isSet_congr {m n : Magnitude} (h : m.same n = true) : m.isSet = n.isSet := by
  cases m <;> cases n <;> simp only [same, Bool.and_eq_true] at h
  case finite.finite =>
    rw [Bool.eq_iff_iff, isSet, isSet, bne_iff_ne, bne_iff_ne, Ne, Ne,
      Digits.coefficient_eq_zero h.1]
  all_goals first | rfl | cases h

theorem isSet_eq_of_magnitude? {m : Magnitude} (h : a.magnitude? = some m) :
    a.isSet = m.isSet := by
  rcases a with _ | (_ | _) | n | ⟨⟨negative, magnitude⟩ | _ | _, mark⟩ | ⟨_ | _ | _, mark⟩ | _ | _
  all_goals cases h
  case int =>
    show (n != 0) = (n.natAbs != 0)
    rw [Bool.eq_iff_iff, bne_iff_ne, bne_iff_ne, Int.natAbs_ne_zero]
  case real.finite => simp [isSet, Magnitude.isSet, Digits.expansion, bne, Nat.pow_eq]
  all_goals rfl

theorem isSet_congr (h : a.same b = true) : a.isSet = b.isSet := by
  rcases same_cases h with rfl | ⟨m, n, ha, hb, h⟩
  · rfl
  · rw [isSet_eq_of_magnitude? ha, isSet_eq_of_magnitude? hb, Magnitude.isSet_congr h]

end Scalar

/-- The kind whose entities can have this name of their kind. -/
def EntityKind.ofName? : String → Option EntityKind
  | "TypeDeclaration" | "TypeReference" => some .type
  | "FieldDeclaration" | "FieldReference" => some .field
  | "MethodDeclaration" | "MethodReference" => some .method
  | "PropertyDeclaration" | "PropertyReference" => some .property
  | "EventDeclaration" | "EventReference" => some .event
  | "Assembly" | "AssemblyReference" => some .assembly
  | "Module" | "ModuleReference" => some .module
  | "GenericParameter" => some .genericParameter
  | "ParameterDeclaration" => some .parameter
  | "VariableDeclaration" => some .variable
  | "Namespace" => some .nameSpace
  | "Resource" => some .resource
  | _ => none

namespace Program

variable (p : Program) {a b c : Entity}

/-- The kind of an entity can be read off the name of its kind. -/
theorem ofName?_kindName (e : Entity) : EntityKind.ofName? (p.kindName e) = some e.kind := by
  unfold kindName
  cases e.kind <;> cases p.isDeclared e <;> rfl

theorem kind_eq_of_kindName (h : p.kindName a = p.kindName b) : a.kind = b.kind :=
  Option.some.inj (by rw [← p.ofName?_kindName a, h, p.ofName?_kindName b])

/-- What two entities that are the same have in common, apart from being one entity. -/
theorem sameDetails_iff {eq : Comparison} : p.sameDetails eq a b = true ↔
    a.kind ≠ .variable ∧ p.kindName a = p.kindName b ∧
      List.Forall₂ (fun v w => v.same eq w = true) (p.compared a) (p.compared b) := by
  rw [sameDetails, Bool.and_eq_true, Bool.and_eq_true, bne_iff_ne, beq_iff_eq, Value.alikeAll_iff,
    and_assoc]

theorem sameWithin_succ (depth : Nat) : (p.sameWithin (depth + 1) a b).1 = true ↔
    a = b ∨ p.sameDetails ⟨Scalar.alike, p.sameWithin depth⟩ a b = true := by
  rw [sameWithin, Bool.or_eq_true, beq_iff_eq]

theorem sameWithin_symm (depth : Nat) (h : (p.sameWithin depth a b).1 = true) :
    (p.sameWithin depth b a).1 = true := by
  induction depth generalizing a b with
  | zero => exact beq_iff_eq.2 (beq_iff_eq.1 h).symm
  | succ depth ih =>
    rw [sameWithin_succ, sameDetails_iff] at h ⊢
    rcases h with rfl | ⟨hv, hk, hs⟩
    · exact .inl rfl
    · refine .inr ⟨?_, hk.symm, (hs.imp fun v w hvw => ?_).flip⟩
      · rwa [← p.kind_eq_of_kindName hk]
      · exact Value.same_symm (fun _ _ => Scalar.same_symm) (fun _ _ => ih) hvw

theorem sameWithin_trans (depth : Nat) (h : (p.sameWithin depth a b).1 = true)
    (h' : (p.sameWithin depth b c).1 = true) : (p.sameWithin depth a c).1 = true := by
  induction depth generalizing a b c with
  | zero => exact beq_iff_eq.2 ((beq_iff_eq.1 h).trans (beq_iff_eq.1 h'))
  | succ depth ih =>
    rw [sameWithin_succ, sameDetails_iff] at h h' ⊢
    rcases h with rfl | ⟨hv, hk, hs⟩
    · exact h'
    · rcases h' with rfl | ⟨-, hk', hs'⟩
      · exact .inr ⟨hv, hk, hs⟩
      · refine .inr ⟨hv, hk.trans hk', (forall₂_comp hs hs').imp fun v x hvx => ?_⟩
        obtain ⟨w, hvw, hwx⟩ := hvx
        exact Value.same_trans (fun _ _ _ => Scalar.same_trans) (fun _ _ _ => ih) hvw hwx

variable {v w x : Value}

theorem same_symm (h : p.same v w = true) : p.same w v = true :=
  Value.same_symm (fun _ _ => Scalar.same_symm) (fun _ _ => p.sameWithin_symm _) h

theorem same_trans (h : p.same v w = true) (h' : p.same w x = true) : p.same v x = true :=
  Value.same_trans (fun _ _ _ => Scalar.same_trans) (fun _ _ _ => p.sameWithin_trans _) h h'

/-- Equality does not tell equal values apart. -/
theorem same_congr {v' w' : Value} (hv : p.same v v' = true) (hw : p.same w w' = true) :
    p.same v w = p.same v' w' := by
  rw [Bool.eq_iff_iff]
  constructor
  · intro h
    exact p.same_trans (p.same_symm hv) (p.same_trans h hw)
  · intro h
    exact p.same_trans hv (p.same_trans h (p.same_symm hw))

end Program

end Scribe
