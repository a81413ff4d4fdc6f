import Scribe.Proofs.Descent
import Scribe.Proofs.Hoisting

/-!
# The scan for variables

`Value.Leads v path x`: the path leads from `v` to the variable `x`, by the places of slots in nodes
and of items in lists. It does not enter what opens a scope of its own or the use of a variable, and
it passes by the variable of a catch clause. `Program.hoisted_exact`: the variables that a body
declares are those that paths lead to, in the order of the paths, each where it is met first.
-/

namespace Scribe

namespace Value

/-- The slots that the scan goes on to from a node or a list, with their places. -/
def scanned : Value → List (Value × Nat)
  | .list items => items.zipIdx
  | .expr (.variable _) => []
  | .expr e => if e.opensScope then [] else e.slots.zipIdx
  | .stmt s => s.slots.zipIdx
  | .clause (.catch body _ test) => [(body, 0), (test, 2)]
  | .clause k => k.slots.zipIdx
  | _ => []

/-- Whether a path of places leads from a slot to a variable. -/
inductive Leads : Value → List Nat → VariableId → Prop
  | here (i : Nat) : Leads (.entity ⟨.variable, i⟩) [] ⟨i⟩
  | step {v w : Value} {n : Nat} {path : List Nat} {x : VariableId} :
    (w, n) ∈ v.scanned → Leads w path x → Leads v (n :: path) x

/-- All variables that paths lead to, in the order of the paths. -/
structure Places (v : Value) (places : List (List Nat × VariableId)) : Prop where
  sorted : places.Pairwise fun a b => List.Lex (· < ·) a.1 b.1
  mem_iff (path : List Nat) (x : VariableId) : (path, x) ∈ places ↔ v.Leads path x

end Value

/-! ### Slots in order -/

theorem Expr.locals_eq {e : Expr} (h : ∀ bound, e ≠ .variable bound) :
    e.locals = e.slots.flatMap Value.locals := by
  cases e with
  | «variable» bound => exact absurd rfl (h bound)
  | _ => simp [Expr.locals, Expr.slots]

theorem Clause.locals_eq {k : Clause} (h : ∀ body bound test, k ≠ .catch body bound test) :
    k.locals = k.slots.flatMap Value.locals := by
  cases k with
  | «catch» body bound test => exact absurd rfl (h body bound test)
  | _ => simp [Clause.locals, Clause.slots]

namespace Value

variable {v : Value}

theorem locals_zipIdx (slots : List Value) :
    slots.zipIdx.flatMap (fun f => f.1.locals) = slots.flatMap locals := by
  rw [← List.flatMap_map, List.zipIdx_map_fst]

/-- The scan goes through the slots of a node one after the other. -/
theorem locals_eq_scanned (h : ∀ i, v ≠ .entity ⟨.variable, i⟩) :
    v.locals = v.scanned.flatMap fun f => f.1.locals := by
  fun_cases scanned v with
  | case1 items => rw [locals_zipIdx, locals, localsOfAll_eq]
  | case2 bound => rfl
  | case3 e he hopen => rw [locals, if_pos hopen, List.flatMap_nil]
  | case4 e he hopen => rw [locals, if_neg hopen, locals_zipIdx, Expr.locals_eq he]
  | case5 s => rw [locals_zipIdx, locals, Stmt.locals_eq]
  | case6 body bound test => simp [locals, Clause.locals]
  | case7 k hk => rw [locals_zipIdx, locals, Clause.locals_eq hk]
  | case8 =>
    rw [List.flatMap_nil]
    unfold locals
    split <;> simp_all

theorem scanned_subset : ∀ f ∈ v.scanned, f.1 ∈ v.slots := by
  have zipped (slots : List Value) : ∀ f ∈ slots.zipIdx, f.1 ∈ slots :=
    fun f hf => List.fst_mem_of_mem_zipIdx hf
  fun_cases scanned v with
  | case1 | case4 | case5 | case7 => exact zipped _
  | case2 | case3 | case8 => simp
  | case6 body bound test => simp [slots, Clause.slots]

theorem scanned_sorted : v.scanned.Pairwise fun f g => f.2 < g.2 := by
  have zipped (slots : List Value) : slots.zipIdx.Pairwise fun f g => f.2 < g.2 := by
    rw [← List.pairwise_map (f := Prod.snd), List.zipIdx_map_snd]
    exact List.pairwise_lt_range'
  fun_cases scanned v with
  | case1 | case4 | case5 | case7 => exact zipped _
  | case2 | case3 | case8 => simp
  | case6 body bound test => simp

/-! ### Places of variables -/

variable {places : List (List Nat × VariableId)}

/-- A slot at place `n`, with the places of the variables below it. -/
def placesAt (n : Nat) (places : List (List Nat × VariableId)) : List (List Nat × VariableId) :=
  places.map fun place => (n :: place.1, place.2)

theorem mem_placesAt {n : Nat} {path : List Nat} {x : VariableId} :
    (path, x) ∈ placesAt n places ↔ ∃ rest, path = n :: rest ∧ (rest, x) ∈ places := by
  unfold placesAt
  rw [List.mem_map]
  constructor
  · rintro ⟨⟨rest, x⟩, hin, ⟨⟩⟩
    exact ⟨rest, rfl, hin⟩
  · rintro ⟨rest, rfl, hin⟩
    exact ⟨(rest, x), hin, rfl⟩

/-- Slots at increasing places hold their variables in the order of the paths. -/
theorem exists_places_of_fields {fields : List (Value × Nat)}
    (sorted : fields.Pairwise fun f g => f.2 < g.2)
    (each : ∀ f ∈ fields, ∃ places, f.1.Places places ∧ places.map Prod.snd = f.1.locals) :
    ∃ places : List (List Nat × VariableId),
      places.Pairwise (fun a b => List.Lex (· < ·) a.1 b.1) ∧
      (∀ path x, (path, x) ∈ places ↔
        ∃ w n rest, (w, n) ∈ fields ∧ path = n :: rest ∧ w.Leads rest x) ∧
      places.map Prod.snd = fields.flatMap fun f => f.1.locals := by
  induction fields with
  | nil => exact ⟨[], .nil, by simp, rfl⟩
  | cons f fields ih =>
    obtain ⟨w, n⟩ := f
    obtain ⟨before, sorted⟩ := List.pairwise_cons.1 sorted
    obtain ⟨⟨first, hfirst, hw⟩, each⟩ := List.forall_mem_cons.1 each
    obtain ⟨rest, hrest, hmem, hmap⟩ := ih sorted each
    refine ⟨placesAt n first ++ rest, List.pairwise_append.2 ⟨?_, hrest, ?_⟩, fun path x => ?_, ?_⟩
    · exact List.pairwise_map.2 (hfirst.sorted.imp .cons)
    · -- The later slots stand at later places, so their paths come after all that pass this one.
      rintro ⟨path, x⟩ hx ⟨path', x'⟩ hx'
      obtain ⟨_, rfl, -⟩ := mem_placesAt.1 hx
      obtain ⟨w', n', _, hin, rfl, -⟩ := (hmem _ _).1 hx'
      exact .rel (before _ hin)
    · rw [List.mem_append, mem_placesAt, hmem]
      constructor
      · rintro (⟨rest, rfl, hin⟩ | ⟨w', n', rest, hin, hpath, hx⟩)
        · exact ⟨w, n, rest, List.mem_cons_self, rfl, (hfirst.mem_iff _ _).1 hin⟩
        · exact ⟨w', n', rest, List.mem_cons_of_mem _ hin, hpath, hx⟩
      · rintro ⟨w', n', rest, hin, rfl, hx⟩
        obtain ⟨⟨⟩⟩ | hin := List.mem_cons.1 hin
        · exact .inl ⟨rest, rfl, (hfirst.mem_iff _ _).2 hx⟩
        · exact .inr ⟨w', n', rest, hin, rfl, hx⟩
    · rw [List.map_append, hmap, List.flatMap_cons, ← hw, placesAt, List.map_map]
      rfl

/-- The scan meets the variables that paths lead to, in the order of the paths. -/
theorem exists_places (v : Value) :
    ∃ places, v.Places places ∧ places.map Prod.snd = v.locals := by
  induction v using slot_induction with
  | slots v ih =>
    by_cases hv : ∃ i, v = .entity ⟨.variable, i⟩
    · obtain ⟨i, rfl⟩ := hv
      refine ⟨[([], ⟨i⟩)], ⟨List.pairwise_singleton _ _, fun path x => ?_⟩, rfl⟩
      rw [List.mem_singleton]
      constructor
      · rintro ⟨⟩
        exact .here i
      · rintro (_ | ⟨hin, -⟩)
        · rfl
        · exact absurd hin List.not_mem_nil
    · have hv (i) : v ≠ .entity ⟨.variable, i⟩ := fun h => hv ⟨i, h⟩
      obtain ⟨places, sorted, hmem, hmap⟩ :=
        exists_places_of_fields scanned_sorted fun f hf => ih f.1 (scanned_subset f hf)
      refine ⟨places, ⟨sorted, fun path x => (hmem path x).trans ?_⟩, ?_⟩
      · constructor
        · rintro ⟨w, n, rest, hin, rfl, hx⟩
          exact .step hin hx
        · rintro (_ | ⟨hin, hx⟩)
          · exact absurd rfl (hv _)
          · exact ⟨_, _, _, hin, rfl, hx⟩
      · rw [hmap, locals_eq_scanned hv]

end Value

/-- The variables that a statement declares up front are those that paths lead to, in the order of
the paths, each once and where it is met first. -/
theorem Program.hoisted_exact (p : Program) (s : Stmt) :
    ∃ places, (Value.stmt s).Places places ∧
      p.hoisted (.stmt s) = .ok (places.map Prod.snd).eraseDups ∧
      (places.map Prod.snd).eraseDups.Nodup := by
  obtain ⟨places, hplaces, hmap⟩ := (Value.stmt s).exists_places
  exact ⟨places, hplaces, by rw [hmap]; rfl, nodup_eraseDups _⟩

end Scribe
