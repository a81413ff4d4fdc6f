import Scribe.Proofs.Sites

/-!
# Variables of the sites of a body

`Site.locals_of_mem_next`: wherever a render goes on to without entering a scope of its own, the
scan for variables goes as well. So the variables that are declared at a site are among those of
every body that the site is reached from in the same scope (`Site.locals_of_reaches`).
-/

namespace Scribe

namespace Site

/-- The slot of a site. -/
def slot : Site → Value
  | .expr v | .stmt v | .label _ v | .catchClause v | .switchCase _ v | .querySource v
  | .queryClause v | .ordering v | .queryOperation v | .queryBody v | .queryContinuation v => v

/-- Whether variables at a site have a scope of their own. The parts of a query belong to it. -/
def opensScope : Site → Bool
  | .expr (.expr e) => e.opensScope
  | .expr _ | .stmt _ | .label .. | .catchClause _ | .switchCase .. => false
  | _ => true

/-- Whether the render of `s` gets to `t`. -/
def Reaches (c : Context) : Site → Site → Prop := Relation.ReflTransGen fun s t => t ∈ s.next c

/-- The same, in one scope. -/
def ReachesInScope (c : Context) : Site → Site → Prop :=
  Relation.ReflTransGen fun s t => s.opensScope = false ∧ t ∈ s.next c

end Site

namespace Value

variable {v w : Value}

theorem locals_elements (h : w ∈ v.elements) : w.locals ⊆ v.locals := by
  cases v with
  | list items =>
    rw [elements] at h
    rw [locals]
    induction items with
    | nil => cases h
    | cons first rest ih =>
      rw [localsOfAll]
      rcases List.mem_cons.1 h with rfl | h
      · exact List.subset_append_left ..
      · exact List.subset_append_of_subset_right _ (ih h)
  | _ => cases h

theorem locals_listed {items : Value} (hv : v.listed? = some items) (h : w ∈ items.elements) :
    w.locals ⊆ v.locals := by
  have hw := locals_elements h
  unfold listed? at hv
  split at hv
  · cases hv
    exact hw
  · cases hv
    exact hw
  · cases hv

theorem locals_accessSlots (h : w ∈ v.accessSlots) : w.locals ⊆ v.locals := by
  unfold accessSlots at h
  split at h
  · next property target =>
    revert h
    revert w
    rw [forall_present]
    exact fun _ => List.subset_append_right ..
  · cases h

theorem locals_assignedSlots (h : w ∈ v.assignedSlots) : w.locals ⊆ v.locals := by
  unfold assignedSlots at h
  split at h
  · exact locals_accessSlots h
  · next property target indices =>
    rcases List.mem_append.1 h with h | h
    · exact List.subset_append_of_subset_left _ (locals_accessSlots h)
    · exact List.subset_append_of_subset_right _ (locals_elements h)
  · obtain rfl := List.mem_singleton.1 h
    exact List.Subset.refl _

theorem locals_filled (h : w ∈ v.filled) : w.locals ⊆ v.locals := by
  revert h
  revert w
  rw [forall_filled]
  exact fun _ _ _ => List.Subset.refl _

end Value

namespace Context

variable (c : Context)

theorem counted?_locals {target value amount : Value} (h : c.counted? target value = some amount) :
    amount.locals ⊆ value.locals := by
  unfold counted? at h
  split at h
  · obtain ⟨-, -, rfl⟩ := Option.map_eq_some_iff.1 h
    exact List.subset_append_right ..
  · cases h

theorem exprSites_locals (e : Expr) (he : e.opensScope = false) :
    ∀ t ∈ c.exprSites e, t.slot.locals ⊆ e.locals := by
  cases e with
  | assign target value =>
    rw [exprSites, Expr.locals, List.forall_mem_map]
    cases hc : c.counted? target value with
    | some amount =>
      rw [List.forall_mem_cons, List.forall_mem_singleton]
      exact ⟨List.subset_append_left ..,
        List.subset_append_of_subset_right _ (c.counted?_locals hc)⟩
    | none =>
      rw [List.forall_mem_append, List.forall_mem_singleton]
      exact ⟨fun w hw => List.subset_append_of_subset_left _ (Value.locals_assignedSlots hw),
        List.subset_append_right ..⟩
  | initMember first operand | stackAllocate first operand | unary first operand =>
    exact List.forall_mem_singleton.2 (List.subset_append_right ..)
  | tryCast operand second | canCast operand second | cast operand second
  | valueOfTyped operand second =>
    exact List.forall_mem_singleton.2 (List.subset_append_left ..)
  | addressOf operand | addressReference operand | addressOut operand | typeOfTyped operand
  | createTyped operand => exact List.forall_mem_singleton.2 (List.Subset.refl _)
  | field member target | event member target | method member target | property member target
  | delegateCreate type member target =>
    rw [exprSites, Expr.locals, List.forall_mem_map, Value.forall_present]
    exact fun _ => List.subset_append_right ..
  | dereference operand =>
    have hsub := List.Subset.refl operand.locals
    cases operand with
    | expr e =>
      cases e with
      | addressOf inner => exact List.forall_mem_singleton.2 hsub
      | _ => exact List.forall_mem_singleton.2 hsub
    | _ => exact List.forall_mem_singleton.2 hsub
  | block items =>
    rw [exprSites, Expr.locals, List.forall_mem_map]
    exact fun w hw => Value.locals_elements hw
  | arrayCreate type dimensions initializer =>
    rw [exprSites, Expr.locals, List.forall_mem_map]
    intro w hw
    cases hl : initializer.listed? with
    | some items =>
      rw [hl] at hw
      exact List.subset_append_of_subset_right _ (Value.locals_listed hl hw)
    | none =>
      rw [hl] at hw
      split_ifs at hw
      · cases hw
      · exact List.subset_append_of_subset_left _
          (List.subset_append_of_subset_right _ (Value.locals_elements hw))
  | binary left operator right =>
    rw [exprSites, Expr.locals, List.forall_mem_cons, List.forall_mem_singleton]
    exact ⟨List.subset_append_of_subset_left _ (List.subset_append_left ..),
      List.subset_append_right ..⟩
  | condition test yes no =>
    rw [exprSites, Expr.locals]
    simp only [List.forall_mem_cons]
    exact ⟨List.subset_append_of_subset_left _ (List.subset_append_left ..),
      List.subset_append_of_subset_left _ (List.subset_append_right ..),
      List.subset_append_right .., List.forall_mem_nil _⟩
  | coalesce subject fallback =>
    rw [exprSites, Expr.locals, List.forall_mem_cons, List.forall_mem_singleton]
    exact ⟨List.subset_append_left .., List.subset_append_right ..⟩
  | propertyIndexer target indices =>
    rw [exprSites, Expr.locals, List.forall_mem_map, List.forall_mem_append]
    exact ⟨fun w hw => List.subset_append_of_subset_left _ (Value.locals_accessSlots hw),
      fun w hw => List.subset_append_of_subset_right _ (Value.locals_elements hw)⟩
  | arrayIndexer target items | invoke target items | delegateInvoke target items =>
    rw [exprSites, Expr.locals, List.forall_mem_map, List.forall_mem_cons]
    exact ⟨List.subset_append_left ..,
      fun w hw => List.subset_append_of_subset_right _ (Value.locals_elements hw)⟩
  | objectCreate type constructor arguments initializer =>
    rw [exprSites, Expr.locals, List.forall_mem_map, List.forall_mem_append]
    refine ⟨fun w hw => List.subset_append_of_subset_left _
      (List.subset_append_of_subset_right _ (Value.locals_elements hw)), fun w hw => ?_⟩
    cases hl : initializer.listed? with
    | none =>
      rw [hl] at hw
      cases hw
    | some items =>
      rw [hl] at hw
      exact List.subset_append_of_subset_right _ (Value.locals_listed hl hw)
  | function parameters body type => cases he
  | lambda parameters body => cases he
  | query source body => cases he
  | _ => exact List.forall_mem_nil _

theorem stmtSites_locals (s : Stmt) : ∀ t ∈ stmtSites s, t.slot.locals ⊆ s.locals := by
  cases s with
  | block statements =>
    rw [stmtSites, Stmt.locals, List.forall_mem_map]
    exact fun w hw => Value.locals_elements hw
  | expression value =>
    rw [stmtSites, Stmt.locals]
    split_ifs
    · exact List.forall_mem_nil _
    · exact List.forall_mem_singleton.2 (List.Subset.refl _)
  | labeled mark label statement =>
    rw [stmtSites, Stmt.locals, List.forall_mem_map, Value.forall_present]
    exact fun _ => List.subset_append_right ..
  | condition test yes no =>
    rw [stmtSites, Stmt.locals]
    simp only [List.forall_mem_append, List.forall_mem_map, Value.forall_present]
    exact ⟨⟨fun _ => List.subset_append_of_subset_left _ (List.subset_append_left ..),
      fun _ => List.subset_append_of_subset_left _ (List.subset_append_right ..)⟩,
      fun w hw => List.subset_append_of_subset_right _ (Value.locals_filled hw)⟩
  | «return» value | throw value =>
    rw [stmtSites, Stmt.locals, List.forall_mem_map, Value.forall_present]
    exact fun _ => List.Subset.refl _
  | «for» start test increment body =>
    rw [stmtSites, Stmt.locals]
    simp only [List.forall_mem_append, List.forall_mem_map, Value.forall_present]
    exact ⟨⟨⟨fun _ => List.subset_append_of_subset_left _ (List.subset_append_of_subset_left _
        (List.subset_append_left ..)),
      fun _ => List.subset_append_of_subset_left _ (List.subset_append_of_subset_left _
        (List.subset_append_right ..))⟩,
      fun _ => List.subset_append_of_subset_left _ (List.subset_append_right ..)⟩,
      fun _ => List.subset_append_right ..⟩
  | forEach bound source body | fixed bound source body =>
    rw [stmtSites, Stmt.locals]
    simp only [List.forall_mem_cons, List.forall_mem_map, Value.forall_present]
    exact ⟨List.subset_append_of_subset_left _ (List.subset_append_right ..),
      fun _ => List.subset_append_right ..⟩
  | «using» test body | «while» test body | «do» test body | lock test body =>
    rw [stmtSites, Stmt.locals]
    simp only [List.forall_mem_append, List.forall_mem_map, Value.forall_present]
    exact ⟨fun _ => List.subset_append_left .., fun _ => List.subset_append_right ..⟩
  | «try» body catches fault last =>
    rw [stmtSites, Stmt.locals]
    simp only [List.forall_mem_append, List.forall_mem_map, Value.forall_present]
    exact ⟨⟨⟨fun _ => List.subset_append_of_subset_left _ (List.subset_append_of_subset_left _
        (List.subset_append_left ..)),
      fun w hw => List.subset_append_of_subset_left _ (List.subset_append_of_subset_left _
        (List.subset_append_of_subset_right _ (Value.locals_elements hw)))⟩,
      fun w hw => List.subset_append_of_subset_left _
        (List.subset_append_of_subset_right _ (Value.locals_filled hw))⟩,
      fun w hw => List.subset_append_of_subset_right _ (Value.locals_filled hw)⟩
  | attach event listener | detach event listener =>
    rw [stmtSites, Stmt.locals, List.forall_mem_cons, List.forall_mem_singleton]
    exact ⟨List.subset_append_left .., List.subset_append_right ..⟩
  | switch subject cases =>
    rw [stmtSites, Stmt.locals]
    simp only [List.forall_mem_append, List.forall_mem_map, Value.forall_present]
    exact ⟨fun _ => List.subset_append_left ..,
      fun w hw => List.subset_append_of_subset_right _ (Value.locals_elements hw)⟩
  | memoryCopy first second third | memoryFill first second third =>
    rw [stmtSites, Stmt.locals]
    simp only [List.forall_mem_cons]
    exact ⟨List.subset_append_of_subset_left _ (List.subset_append_left ..),
      List.subset_append_of_subset_left _ (List.subset_append_right ..),
      List.subset_append_right .., List.forall_mem_nil _⟩
  | _ => exact List.forall_mem_nil _

end Context

namespace Site

variable {c : Context}

/-- The scan for variables goes where the render goes. -/
theorem locals_of_mem_next {s : Site} (hs : s.opensScope = false) :
    ∀ t ∈ s.next c, t.slot.locals ⊆ s.slot.locals := by
  cases s with
  | expr v =>
    cases v with
    | expr e =>
      have he : e.opensScope = false := hs
      have hl : (Value.expr e).locals = e.locals := by rw [Value.locals, he]; rfl
      rw [slot, hl]
      exact c.exprSites_locals e he
    | _ => exact List.forall_mem_nil _
  | stmt v =>
    cases v with
    | stmt s => exact Context.stmtSites_locals s
    | _ => exact List.forall_mem_nil _
  | label subject v =>
    have hwhole := List.Subset.refl v.locals
    cases v with
    | expr e =>
      cases e with
      | binary left operator right =>
        rw [next]
        split_ifs
        · rw [List.forall_mem_cons, List.forall_mem_singleton]
          exact ⟨List.subset_append_of_subset_left _ (List.subset_append_left ..),
            List.subset_append_right ..⟩
        · exact List.forall_mem_singleton.2 (List.subset_append_right ..)
        · exact List.forall_mem_singleton.2 hwhole
      | _ => exact List.forall_mem_singleton.2 hwhole
    | _ => exact List.forall_mem_singleton.2 hwhole
  | catchClause v =>
    cases v with
    | clause k =>
      cases k with
      | «catch» body bound test =>
        rw [next]
        simp only [List.forall_mem_append, List.forall_mem_map, Value.forall_present]
        exact ⟨fun _ => List.subset_append_right .., fun _ => List.subset_append_left ..⟩
      | _ => exact List.forall_mem_nil _
    | _ => exact List.forall_mem_nil _
  | switchCase subject v =>
    cases v with
    | clause k =>
      cases k with
      | case body test =>
        rw [next]
        simp only [List.forall_mem_cons, List.forall_mem_map, Value.forall_present]
        exact ⟨List.subset_append_right .., fun _ => List.subset_append_left ..⟩
      | default body =>
        rw [next, List.forall_mem_map, Value.forall_present]
        exact fun _ => List.Subset.refl _
      | _ => exact List.forall_mem_nil _
    | _ => exact List.forall_mem_nil _
  | _ => cases hs

/-- What is declared at a site is declared in every body that it is reached from in one scope. -/
theorem locals_of_reaches {s t : Site} (h : ReachesInScope c s t) :
    t.slot.locals ⊆ s.slot.locals := by
  induction h with
  | refl => exact List.Subset.refl _
  | tail _ hst ih => exact List.Subset.trans (locals_of_mem_next hst.1 _ hst.2) ih

theorem ReachesInScope.reaches {s t : Site} (h : ReachesInScope c s t) : Reaches c s t := by
  induction h with
  | refl => exact .refl
  | tail _ hst ih => exact .tail ih hst.2

/-- What a render gets to is a part of it. -/
theorem Reaches.within {s t : Site} (h : Reaches c s t) (hf : (s.script c).fault = none) :
    Script.Within (t.script c) (s.script c) := by
  induction h with
  | refl => exact .refl
  | tail _ hst ih => exact (within_of_mem_next c _ (ih.fault hf) _ hst).trans ih

end Site

end Scribe
