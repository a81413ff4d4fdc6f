import Scribe.Proofs.Locals
import Scribe.Proofs.Slots

/-!
# Renders go down the tree

`Site.below_of_mem_next`: what a render goes on to stands in a slot of the tree it is at, but for a
label, which may first go on to its own condition. So what holds of a site if it holds of the sites it
goes on to holds of all sites (`Site.next_induction`). The variables that a scan collects stand in the
tree as well (`Value.inside_of_mem_locals`).
-/

namespace Scribe

namespace Value

variable {v w : Value}

/-- Whether `w` stands in a slot of `v`, at any depth. -/
def Below (w v : Value) : Prop := ∃ u ∈ v.slots, Inside w u

theorem Below.inside (h : Below w v) : Inside w v := by
  obtain ⟨u, hu, hw⟩ := h
  exact hw.trans (.slot (.refl u) hu)

/-- What follows for a tree from all that stands in its slots holds of all trees. -/
theorem below_induction {motive : Value → Prop}
    (below : ∀ v : Value, (∀ w, Below w v → motive w) → motive v) (v : Value) : motive v := by
  have hall : ∀ w, Inside w v → motive w := by
    induction v using slot_induction with
    | slots v ih =>
      have hbelow : ∀ w, Below w v → motive w := fun w ⟨u, hu, hw⟩ => ih u hu w hw
      intro w hw
      cases hw with
      | refl => exact below v hbelow
      | slot hin hslot => exact hbelow w ⟨_, hslot, hin⟩
  exact hall v (.refl v)

theorem inside_elements (h : w ∈ v.elements) : Inside w v := by
  cases v with
  | list items => exact .slot (.refl w) h
  | _ => cases h

theorem inside_present (h : w ∈ v.present) : Inside w v := by
  unfold present at h
  split at h
  · cases h
  · rw [List.mem_singleton.1 h]
    exact .refl v

theorem inside_filled (h : w ∈ v.filled) : Inside w v := by
  revert h
  revert w
  rw [forall_filled]
  exact fun _ _ _ => .refl v

theorem inside_listed {items : Value} (hv : v.listed? = some items) (h : w ∈ items.elements) :
    Inside w v := by
  have hw := inside_elements h
  unfold listed? at hv
  split at hv
  · cases hv
    exact hw.trans (.slot (.refl _) (List.mem_singleton_self _))
  · cases hv
    exact hw.trans (.slot (.refl _) (List.mem_singleton_self _))
  · cases hv

theorem inside_accessSlots (h : w ∈ v.accessSlots) : Inside w v := by
  unfold accessSlots at h
  split at h
  · next property target =>
    exact (inside_present h).trans (.slot (.refl _) (by simp [slots, Expr.slots]))
  · cases h

theorem inside_assignedSlots (h : w ∈ v.assignedSlots) : Inside w v := by
  unfold assignedSlots at h
  split at h
  · exact inside_accessSlots h
  · next property target indices =>
    rcases List.mem_append.1 h with h | h
    · exact (inside_accessSlots (v := .expr (.property property target)) h).trans
        (.slot (.refl _) (by simp [slots, Expr.slots]))
    · exact (inside_elements h).trans (.slot (.refl _) (by simp [slots, Expr.slots]))
  · rw [List.mem_singleton.1 h]
    exact .refl v

theorem localsOfAll_eq (vs : List Value) : localsOfAll vs = vs.flatMap locals := by
  induction vs with
  | nil => rfl
  | cons v vs ih => rw [localsOfAll, ih, List.flatMap_cons]

end Value

theorem Expr.locals_subset (e : Expr) : e.locals ⊆ e.slots.flatMap Value.locals := by
  cases e <;> simp [Expr.locals, Expr.slots]

theorem Stmt.locals_eq (s : Stmt) : s.locals = s.slots.flatMap Value.locals := by
  cases s <;> simp [Stmt.locals, Stmt.slots]

theorem Clause.locals_subset (k : Clause) : k.locals ⊆ k.slots.flatMap Value.locals := by
  cases k <;> simp [Clause.locals, Clause.slots]

namespace Value

/-- The variables that are collected from a tree stand in it. -/
theorem inside_of_mem_locals (v : Value) : ∀ id ∈ v.locals, Inside (.entity id.entity) v := by
  induction v using slot_induction with
  | slots v ih =>
    have hslots (hv : v.locals ⊆ v.slots.flatMap locals) :
        ∀ id ∈ v.locals, Inside (.entity id.entity) v := by
      intro id hid
      obtain ⟨u, hu, hl⟩ := List.mem_flatMap.1 (hv hid)
      exact (ih u hu id hl).trans (.slot (.refl u) hu)
    cases v with
    | entity e =>
      obtain ⟨kind, i⟩ := e
      cases kind with
      | «variable» =>
        rw [locals, List.forall_mem_singleton]
        exact .refl _
      | _ => exact List.forall_mem_nil _
    | list items =>
      refine hslots ?_
      rw [locals, localsOfAll_eq]
      exact List.Subset.refl _
    | expr e =>
      refine hslots ?_
      rw [locals]
      split_ifs
      · exact List.nil_subset _
      · exact e.locals_subset
    | stmt s =>
      refine hslots ?_
      rw [locals, s.locals_eq]
      exact List.Subset.refl _
    | clause k => exact hslots k.locals_subset
    | _ => exact List.forall_mem_nil _

end Value

/-! ### Sites -/

namespace Context

variable (c : Context)

theorem counted?_inside {target value amount : Value} (h : c.counted? target value = some amount) :
    Value.Inside amount value := by
  unfold counted? at h
  split at h
  · obtain ⟨-, -, rfl⟩ := Option.map_eq_some_iff.1 h
    exact .slot (.refl _) (by simp [Value.slots, Expr.slots])
  · cases h

theorem exprSites_below (e : Expr) : ∀ t ∈ c.exprSites e, t.slot.Below (.expr e) := by
  cases e with
  | assign target value =>
    rw [exprSites, List.forall_mem_map]
    cases hc : c.counted? target value with
    | some amount =>
      simp [Value.Below, Value.slots, Expr.slots, Site.slot, Value.Inside.refl, c.counted?_inside hc]
    | none =>
      simp +contextual [Value.Below, Value.slots, Expr.slots, Site.slot, Value.Inside.refl, or_imp,
        Value.inside_assignedSlots]
  | dereference operand =>
    have hself : operand.Below (.expr (.dereference operand)) :=
      ⟨operand, List.mem_singleton_self _, .refl _⟩
    cases operand with
    | expr e =>
      cases e with
      | addressOf inner =>
        exact List.forall_mem_singleton.2 ⟨_, List.mem_singleton_self _,
          .slot (.refl inner) (List.mem_singleton_self _)⟩
      | _ => exact List.forall_mem_singleton.2 hself
    | _ => exact List.forall_mem_singleton.2 hself
  | arrayCreate type dimensions initializer =>
    rw [exprSites, List.forall_mem_map]
    cases hl : initializer.listed? with
    | some items =>
      exact fun w hw => ⟨initializer, by simp [Value.slots, Expr.slots], Value.inside_listed hl hw⟩
    | none =>
      dsimp only
      split_ifs
      · exact List.forall_mem_nil _
      · exact fun w hw => ⟨dimensions, by simp [Value.slots, Expr.slots], Value.inside_elements hw⟩
  | objectCreate type constructor arguments initializer =>
    rw [exprSites, List.forall_mem_map, List.forall_mem_append]
    refine ⟨fun w hw => ⟨arguments, by simp [Value.slots, Expr.slots], Value.inside_elements hw⟩, ?_⟩
    cases hl : initializer.listed? with
    | some items =>
      exact fun w hw => ⟨initializer, by simp [Value.slots, Expr.slots], Value.inside_listed hl hw⟩
    | none => exact List.forall_mem_nil _
  | _ =>
    simp +contextual [exprSites, Site.slot, Value.Below, Value.slots, Expr.slots, Value.Inside.refl,
      Value.forall_present, Value.inside_elements, Value.inside_accessSlots, or_imp, forall_and]

theorem stmtSites_below (s : Stmt) : ∀ t ∈ stmtSites s, t.slot.Below (.stmt s) := by
  cases s with
  | expression value =>
    rw [stmtSites]
    split_ifs
    · exact List.forall_mem_nil _
    · exact List.forall_mem_singleton.2 ⟨value, List.mem_singleton_self _, .refl _⟩
  | _ =>
    simp +contextual [stmtSites, Site.slot, Value.Below, Value.slots, Stmt.slots, Value.Inside.refl,
      Value.forall_present, Value.inside_filled, Value.inside_elements, or_imp, forall_and]

end Context

namespace Site

variable {c : Context}

/-- A render goes on to what stands in a slot, but for a label that goes on to its whole condition. -/
theorem below_of_mem_next (s : Site) : ∀ t ∈ s.next c,
    t.slot.Below s.slot ∨ ∃ subject v, s = .label subject v ∧ t = .expr v := by
  cases s with
  | expr v =>
    cases v with
    | expr e => exact fun t ht => .inl (c.exprSites_below e t ht)
    | _ => exact List.forall_mem_nil _
  | stmt v =>
    cases v with
    | stmt s => exact fun t ht => .inl (Context.stmtSites_below s t ht)
    | _ => exact List.forall_mem_nil _
  | label subject v =>
    have hwhole : ∀ t ∈ [Site.expr v], t.slot.Below v ∨
        ∃ subject' w, Site.label subject v = .label subject' w ∧ t = .expr w :=
      List.forall_mem_singleton.2 (.inr ⟨subject, v, rfl, rfl⟩)
    cases v with
    | expr e =>
      cases e with
      | binary left operator right =>
        rw [next]
        split_ifs
        · simp [slot, Value.Below, Value.slots, Expr.slots, Value.Inside.refl]
        · simp [slot, Value.Below, Value.slots, Expr.slots, Value.Inside.refl]
        · exact hwhole
      | _ => exact hwhole
    | _ => exact hwhole
  | catchClause v =>
    cases v with
    | clause k =>
      cases k with
      | «catch» body bound test =>
        simp [next, slot, Value.Below, Value.slots, Clause.slots, Value.Inside.refl,
          Value.forall_present, or_imp, forall_and]
      | _ => exact List.forall_mem_nil _
    | _ => exact List.forall_mem_nil _
  | switchCase subject v =>
    cases v with
    | clause k =>
      cases k with
      | case body test | default body =>
        simp [next, slot, Value.Below, Value.slots, Clause.slots, Value.Inside.refl,
          Value.forall_present]
      | _ => exact List.forall_mem_nil _
    | _ => exact List.forall_mem_nil _
  | querySource v | queryContinuation v =>
    cases v with
    | clause k =>
      cases k with
      | «from» | «let» | continuation | «catch» =>
        simp [next, slot, Value.Below, Value.slots, Clause.slots, Value.Inside.refl]
      | _ => exact List.forall_mem_nil _
    | stmt s =>
      cases s with
      | forEach bound source body | fixed bound source body =>
        simp [next, slot, Value.Below, Value.slots, Stmt.slots, Value.Inside.refl]
      | _ => exact List.forall_mem_nil _
    | _ => exact List.forall_mem_nil _
  | queryClause v =>
    cases v with
    | clause k =>
      cases k with
      | «from» | «where» | «let» | join =>
        simp [next, slot, Value.Below, Value.slots, Clause.slots, Value.Inside.refl]
      | order orderings =>
        rw [next, List.forall_mem_map]
        exact fun w hw => .inl ⟨orderings, List.mem_singleton_self _, Value.inside_elements hw⟩
      | _ => exact List.forall_mem_nil _
    | _ => exact List.forall_mem_nil _
  | ordering v | queryOperation v =>
    cases v with
    | clause k =>
      cases k with
      | ordering | select | group =>
        simp [next, slot, Value.Below, Value.slots, Clause.slots, Value.Inside.refl]
      | _ => exact List.forall_mem_nil _
    | _ => exact List.forall_mem_nil _
  | queryBody v =>
    cases v with
    | clause k =>
      cases k with
      | queryBody operation clauses continuation =>
        simp +contextual [next, slot, Value.Below, Value.slots, Clause.slots, Value.Inside.refl,
          Value.inside_elements, or_imp]
      | _ => exact List.forall_mem_nil _
    | _ => exact List.forall_mem_nil _

theorem inside_of_mem_next {s t : Site} (h : t ∈ s.next c) : t.slot.Inside s.slot := by
  obtain hbelow | ⟨subject, v, rfl, rfl⟩ := s.below_of_mem_next t h
  · exact hbelow.inside
  · exact .refl v

/-- What follows for a site from those that it goes on to holds of all sites. -/
theorem next_induction {motive : Site → Prop}
    (next : ∀ s : Site, (∀ t ∈ s.next c, motive t) → motive s) (s : Site) : motive s := by
  suffices hall : ∀ v : Value, ∀ s : Site, s.slot = v → motive s from hall s.slot s rfl
  intro v
  induction v using Value.below_induction with
  | below v ih =>
    -- A label goes on to an expression at its own slot, so labels come last.
    have hplain (s : Site) (hs : s.slot = v) (hl : ∀ subject w, s ≠ .label subject w) : motive s := by
      refine next s fun t ht => ?_
      obtain hbelow | ⟨subject, w, rfl, -⟩ := s.below_of_mem_next t ht
      · exact ih t.slot (hs ▸ hbelow) t rfl
      · exact absurd rfl (hl subject w)
    intro s hs
    refine next s fun t ht => ?_
    obtain hbelow | ⟨subject, w, rfl, rfl⟩ := s.below_of_mem_next t ht
    · exact ih t.slot (hs ▸ hbelow) t rfl
    · exact hplain (.expr w) hs nofun

end Site

end Scribe
