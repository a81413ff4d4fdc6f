import Scribe.Proofs.DeclarationRoles
import Scribe.Session

/-!
# Indentation is balanced

The level of tokens is the number of indents among them less the number of outdents. At every point
of a run it is the depth of the layout (`Step.Passes.depth`), whatever the steps are. That it never
falls below zero, and comes back to zero in a run without a fault, is a law of all rendered scripts:
`Script.Shifts` says how far a script moves the margin, and a label, the only step that moves back
before it moves forth, does so only where the layout stands at least one level in.

`Call.indentation_balanced`: every call of a writer that writes anything keeps the law.
-/

namespace Scribe

/-! ### Levels of tokens -/

namespace Token

/-- The indents among tokens less the outdents. -/
def level (ts : List Token) : Int := ts.count .indent - ts.count .outdent

/-- By how much a token moves the margin. -/
def shift : Token → Int
  | .indent => 1
  | .outdent => -1
  | _ => 0

@[simp] theorem level_nil : level [] = 0 := rfl

@[simp] theorem level_cons (t : Token) (ts : List Token) : level (t :: ts) = t.shift + level ts := by
  cases t <;> simp [level, shift]
  all_goals omega

@[simp] theorem level_append (a b : List Token) : level (a ++ b) = level a + level b := by
  simp only [level, List.count_append]
  omega

/-- On a margin at `depth`, no token takes it below zero. -/
def Above (depth : Int) : List Token → Prop
  | [] => 0 ≤ depth
  | t :: ts => 0 ≤ depth ∧ Above (depth + t.shift) ts

theorem above_append {depth : Int} {a b : List Token} :
    Above depth (a ++ b) ↔ Above depth a ∧ Above (depth + level a) b := by
  induction a generalizing depth with
  | nil =>
    have hb : Above depth b → 0 ≤ depth := by
      cases b with
      | nil => exact id
      | cons t b => exact And.left
    simpa [Above] using hb
  | cons t a ih => simp only [List.cons_append, Above, ih, level_cons, Int.add_assoc, and_assoc]

theorem above_iff {depth : Int} {ts : List Token} :
    Above depth ts ↔ ∀ us, us <+: ts → 0 ≤ depth + level us := by
  induction ts generalizing depth with
  | nil => simp [Above]
  | cons t ts ih =>
    rw [Above, ih]
    constructor
    · rintro ⟨hd, hts⟩ us hus
      rcases List.prefix_cons_iff.1 hus with rfl | ⟨vs, rfl, hvs⟩
      · simpa using hd
      · rw [level_cons, ← Int.add_assoc]
        exact hts vs hvs
    · intro h
      refine ⟨by simpa using h [] List.nil_prefix, fun us hus => ?_⟩
      have := h (t :: us) (List.cons_prefix_cons.2 ⟨rfl, hus⟩)
      rwa [level_cons, ← Int.add_assoc] at this

end Token

/-- A margin stands where the tokens on it have moved it. -/
theorem Margin.layout_level (m : Margin) (ts : List Token) :
    (m.layout ts).1.level = m.level + Token.level ts := by
  induction ts generalizing m with
  | nil => simp
  | cons t ts ih =>
    have hput : (m.put t).1.level = m.level + t.shift := by
      have hwrite (s : String) : (m.write s).1.level = m.level := by
        unfold Margin.write
        split <;> rfl
      cases t <;> simp [Margin.put, Token.shift, hwrite]
      omega
    rw [Margin.layout_cons, ih, hput, Token.level_cons]
    omega

open Token

/-! ### Points of a run -/

theorem Layout.move_depth (l : Layout) (t : Token) : (l.move t).depth = l.depth + t.shift := by
  cases t <;> simp [move, shift]
  omega

theorem Layout.foldl_move_depth (l : Layout) (ts : List Token) :
    (ts.foldl move l).depth = l.depth + level ts := by
  induction ts generalizing l with
  | nil => simp
  | cons t ts ih => rw [List.foldl_cons, ih, move_depth, level_cons, Int.add_assoc]

namespace Step

/-- The tokens that a step writes. -/
def tokens (l : Layout) (s : Step) : List Token := (s.apply l).2.filterMap Event.token?

/-- `Passes l steps ts m`: a run of the steps on `l` comes to a point where it has written `ts` and
stands on `m`. A step writes its tokens one by one and moves the margin with each. -/
inductive Passes : Layout → List Step → List Token → Layout → Prop
  | start (l : Layout) (steps : List Step) : Passes l steps [] l
  | inside {l : Layout} {s : Step} (rest : List Step) {ts : List Token} (h : ts <+: s.tokens l) :
    Passes l (s :: rest) ts (ts.foldl Layout.move l)
  | after {l : Layout} {s : Step} {rest : List Step} {ts : List Token} {m : Layout} :
    Passes (s.apply l).1 rest ts m → Passes l (s :: rest) (s.tokens l ++ ts) m

/-- A step leaves the layout as deep as the tokens it writes leave the margin. -/
theorem apply_depth (l : Layout) (s : Step) : (s.apply l).1.depth = l.depth + level (s.tokens l) := by
  cases s with
  | token t => simp [apply, tokens, Event.token?, Layout.move_depth]
  | log | openBody | terminate | header | enter => exact (Int.add_zero _).symm
  | leave =>
    simp only [apply, tokens, Layout.leave]
    split <;> simp
  | closeBody =>
    simp only [apply, tokens, Script.filterMap_token, Layout.closeBody_fst, Layout.closeBody_snd,
      Layout.separator_snd]
    split_ifs <;> simp [shift]
  | separator =>
    simp only [apply, tokens, Script.filterMap_token, Layout.separator_fst, Layout.separator_snd]
    split_ifs <;> simp [shift]
  | finish =>
    simp only [apply, tokens, Script.filterMap_token, Layout.finish]
    split_ifs <;> simp [shift]
  | label name =>
    simp only [apply, tokens, Script.filterMap_token, Layout.label_snd]
    show l.depth = _
    split_ifs <;> simp [shift]

theorem runAll_depth (l : Layout) (steps : List Step) :
    (runAll l steps).1.depth = l.depth + level ((runAll l steps).2.filterMap Event.token?) := by
  induction steps generalizing l with
  | nil => simp [runAll]
  | cons s steps ih =>
    simp only [runAll, List.filterMap_append, level_append]
    rw [ih, apply_depth, tokens, Int.add_assoc]

/-- At every point the layout is as deep as the tokens written so far leave the margin. -/
theorem Passes.depth {l m : Layout} {steps : List Step} {ts : List Token}
    (h : Passes l steps ts m) : m.depth = l.depth + level ts := by
  induction h with
  | start => simp
  | inside => exact Layout.foldl_move_depth _ _
  | after _ ih => rw [ih, apply_depth, level_append, Int.add_assoc]

/-- A run passes just the beginnings of what it writes. -/
theorem exists_passes_iff {l : Layout} {steps : List Step} {ts : List Token} :
    (∃ m, Passes l steps ts m) ↔ ts <+: (runAll l steps).2.filterMap Event.token? := by
  constructor
  · rintro ⟨m, h⟩
    induction h with
    | start => exact List.nil_prefix
    | inside rest h =>
      simp only [runAll, List.filterMap_append]
      exact h.trans (List.prefix_append ..)
    | after _ ih =>
      simp only [runAll, List.filterMap_append]
      exact (List.prefix_append_right_inj _).2 ih
  · intro h
    induction steps generalizing l ts with
    | nil => exact ⟨l, List.prefix_nil.1 h ▸ .start l []⟩
    | cons s steps ih =>
      simp only [runAll, List.filterMap_append] at h
      rcases List.prefix_or_prefix_of_prefix h (List.prefix_append ..) with hs | ⟨us, rfl⟩
      · exact ⟨_, .inside steps hs⟩
      · obtain ⟨m, hm⟩ := ih ((List.prefix_append_right_inj _).1 h)
        exact ⟨m, .after hm⟩

end Step

/-! ### How far scripts move the margin -/

namespace Script

variable {a b d s : Script} {x y z : Nat}

/-- Where the layout stands at least `x` levels in, the script never takes the margin below zero, and
if it does not fault it moves the margin from level `x` to level `y`. -/
def Shifts (x y : Nat) (s : Script) : Prop :=
  ∀ l : Layout, x ≤ l.depth →
    Above l.depth (s.tokens l) ∧ (s.fault = none → level (s.tokens l) = y - x)

/-- The script keeps the margin. -/
abbrev Level (s : Script) : Prop := Shifts 0 0 s

theorem after_depth (s : Script) (l : Layout) :
    (s.after l).depth = l.depth + level (s.tokens l) := Step.runAll_depth l s.steps

namespace Shifts

theorem append (ha : Shifts x y a) (hb : Shifts y z b) : Shifts x z (a ++ b) := by
  intro l hl
  obtain ⟨hla, hka⟩ := ha l hl
  cases hf : a.fault with
  | some f =>
    rw [tokens_append_of_some hf]
    exact ⟨hla, fun hn => by simp [hf] at hn⟩
  | none =>
    have hk := hka hf
    have hdepth : (a.after l).depth = l.depth + (y - x) := by rw [after_depth, hk]
    obtain ⟨hlb, hkb⟩ := hb (a.after l) (by omega)
    rw [tokens_append hf, above_append, level_append, hk]
    refine ⟨⟨hla, ?_⟩, fun hn => ?_⟩
    · rwa [hdepth] at hlb
    · rw [hkb (fault_append_eq_none.1 hn).2]
      omega

theorem level (h : Level s) (x : Nat) : Shifts x x s := by
  intro l hl
  obtain ⟨habove, hkept⟩ := h l (by omega)
  exact ⟨habove, fun hf => by rw [hkept hf]; omega⟩

theorem empty : Level ∅ := fun _ hl => ⟨hl, fun _ => rfl⟩

theorem fail (f : Fault) : Level (fail f) := fun _ hl => ⟨hl, nofun⟩

/-- A step that writes no indentation. -/
theorem step {t : Step} (h : ∀ l, ∀ u ∈ t.tokens l, u.shift = 0) : Level (step t) := by
  have still (ts : List Token) (hts : ∀ u ∈ ts, u.shift = 0) (depth : Int) (hd : 0 ≤ depth) :
      Above depth ts ∧ Token.level ts = 0 := by
    induction ts with
    | nil => exact ⟨hd, rfl⟩
    | cons u ts ih =>
      obtain ⟨habove, hlevel⟩ := ih fun v hv => hts v (List.mem_cons_of_mem _ hv)
      have hu := hts u (List.mem_cons_self ..)
      exact ⟨⟨hd, by rwa [hu, Int.add_zero]⟩, by rw [level_cons, hu, hlevel]; rfl⟩
  intro l hl
  obtain ⟨habove, hlevel⟩ := still _ (h l) l.depth hl
  rw [tokens_step]
  exact ⟨habove, fun _ => hlevel⟩

theorem token {t : Token} (h : t.shift = 0) : Level (token t) :=
  .step fun l => by simpa [Step.tokens, Step.apply, Event.token?] using h

theorem text (s : String) : Level (text s) := .token rfl

theorem separator : Level (Script.step .separator) := .step fun l => by
  simp only [Step.tokens, Step.apply, filterMap_token, Layout.separator_snd]
  split_ifs <;> simp [shift]

theorem closeBody : Level (Script.step .closeBody) := .step fun l => by
  simp only [Step.tokens, Step.apply, filterMap_token, Layout.closeBody_snd, Layout.separator_snd]
  split_ifs <;> simp [shift]

theorem finish : Level (Script.step .finish) := .step fun l => by
  simp only [Step.tokens, Step.apply, filterMap_token, Layout.finish]
  split_ifs <;> simp [shift]

/-- A step that writes nothing. -/
theorem silent {t : Step} (h : ∀ l, t.tokens l = []) : Level (Script.step t) :=
  .step fun l => by simp [h]

/-- A label takes back a level only where there is one. -/
theorem label (name : Scalar) : Level (Script.step (.label name)) := by
  intro l hl
  rw [tokens_step]
  simp only [Step.apply, filterMap_token, Layout.label_snd]
  split_ifs with h
  · have : 0 ≤ l.depth - 1 := by omega
    simp [Above, shift]
    omega
  · have : 0 ≤ l.depth := hl
    simpa [Above, shift] using this

theorem indent (x : Nat) : Shifts x (x + 1) (Script.token .indent) := by
  intro l hl
  simp [Above, shift]
  omega

theorem outdent (x : Nat) : Shifts (x + 1) x (Script.token .outdent) := by
  intro l hl
  simp [Above, shift]
  omega

theorem indented (h : Level s) : Level (indented s) :=
  ((indent 0).append (h.level 1)).append (outdent 0)

theorem body (h : Level s) : Level (body s) :=
  ((silent fun _ => rfl).append h).append closeBody

theorem sequential : Sequential (Shifts x x) := ⟨empty.level x, append⟩

end Shifts

theorem IsName.level (h : IsName s) : Level s := by
  cases h with
  | fail f => exact .fail f
  | token name target => exact .token rfl

theorem Declares.level (h : Declares d) : Level d := by
  cases h with
  | fail f => exact .fail f
  | lines entry h =>
    refine (Shifts.silent fun _ => rfl).append (Shifts.sequential.concat fun s hs => ?_)
    obtain ⟨n, hn, rfl⟩ := List.mem_map.1 hs
    exact (((Shifts.text _).append (h n hn).level).append (.text _)).append (.token rfl)

/-- All code keeps the margin. -/
theorem Fits.level {r : Role} (h : Fits r s) : Level s := by
  induction h with
  | empty | none => exact .empty
  | fail f | broken f => exact .fail f
  | @token t h => exact .token (by cases t <;> first | rfl | cases h)
  | names hs h =>
    exact (Shifts.text _).append (Shifts.sequential.commaSeparated (.text _) fun n hn => (h n hn).level)
  | append _ _ ha hb | ownAppend _ _ ha hb | own _ _ ha hb | follow _ _ ha hb => exact ha.append hb
  | delayed _ h | later _ h | inline _ h | started _ h => exact h
  | indented _ h | ownIndented _ h => exact h.indented
  | wrapped _ _ _ ha hb hc =>
    exact (((ha.append (.indent 0)).append (hb.level 1)).append (hc.level 1)).append (.outdent 0)
  | function hd _ hs =>
    exact ((((Shifts.silent fun _ => rfl).append hd.level).append hs.body).append
      (.silent fun _ => rfl)).indented
  | terminate needed => exact .silent fun _ => rfl
  | body _ h => exact h.body.indented
  | first => exact .separator
  | next _ h => exact h.append .separator
  | header _ _ _ _ ha hs hc hi =>
    have still (t : Step) (ht : ∀ l, t.tokens l = []) : Level (step t) := .silent ht
    exact ((((((((ha.append (still _ fun _ => rfl)).append (still _ fun _ => rfl)).append hs).append
      (.text _)).append hc).append (.text _)).append (still _ fun _ => rfl)).append hi).append
      (still _ fun _ => rfl)
  | label name => exact Shifts.separator.append (.label name)

/-- All declarations keep the margin. -/
theorem Outline.level (h : Outline s) : Level s := by
  induction h with
  | code h => exact h.level
  | name h => exact h.level
  | log entry => exact .silent fun _ => rfl
  | append _ _ ha hb => exact ha.append hb
  | indented _ h => exact h.indented

end Script

open Script

/-- A statement on its own keeps the margin. -/
theorem Context.statement_level (c : Context) (v : Value) : Level (c.statement v) := by
  have h := (c.stmtSlot_fits v).level
  unfold Context.statement
  split
  · exact h.body
  · exact ((Shifts.silent fun _ => rfl).append h).append .finish

namespace Call

variable {c : Context} {call : Call} {s : Script}

theorem offered_eq (h : call.script? c = some s) : call.offered c = .ofScript s := by
  cases call <;> cases h <;> rfl

theorem script?_level (h : call.script? c = some s) : Level s := by
  cases call with
  | assembly value => cases h; exact (c.assembly_outline value).level
  | assemblyReference value => cases h; exact (c.assemblyReference_outline value).level
  | module value => cases h; exact (c.module_outline value).level
  | moduleReference value => cases h; exact (c.moduleReference_outline value).level
  | resource value => cases h; exact (c.resource_outline value).level
  | nameSpace value => cases h; exact (c.nameSpace_outline value).level
  | typeDeclaration value => cases h; exact (c.typeDeclaration_outline value).level
  | fieldDeclaration value => cases h; exact (c.fieldDeclaration_outline value).level
  | methodDeclaration value => cases h; exact (c.methodDeclaration_outline value).level
  | propertyDeclaration value => cases h; exact (c.propertyDeclaration_outline value).level
  | eventDeclaration value => cases h; exact (c.eventDeclaration_outline value).level
  | statement value => cases h; exact c.statement_level value
  | expression value => cases h; exact (c.exprSlot_fits value).level
  | type value => cases h; exact (c.program.typeSlot_inline value).level
  | _ => cases h

/-- What a call writes passes through just the beginnings of its tokens. At each of these points,
and no matter whether a fault comes later, the depth of the layout is the level of the tokens
written so far, which is not negative; and a call without a fault ends on level zero. -/
theorem indentation_balanced (p : Program) (style : Style) (call : Call) {s : Script}
    (h : call.script? { program := p, style := style } = some s) :
    (∀ ts, ts <+: (call.reply { program := p, style := style }).tokens ↔
      ∃ m, Step.Passes {} s.steps ts m) ∧
    (∀ ts m, Step.Passes {} s.steps ts m → m.depth = level ts ∧ 0 ≤ level ts) ∧
    ((call.reply { program := p, style := style }).fault = none →
      level (call.reply { program := p, style := style }).tokens = 0) := by
  have hreply : call.reply { program := p, style := style } = .ofScript s := by
    rw [reply, if_pos (by cases call <;> rfl), offered_eq h]
  have htokens : (Reply.ofScript s).tokens = s.tokens {} := s.outcome_tokens
  obtain ⟨habove, hlevel⟩ := script?_level h {} (Int.le_refl 0)
  rw [hreply, htokens]
  refine ⟨fun ts => Step.exists_passes_iff.symm, fun ts m hm => ?_, fun hf => ?_⟩
  · have hpre : ts <+: s.tokens {} := Step.exists_passes_iff.1 ⟨m, hm⟩
    have hts := above_iff.1 habove ts hpre
    have hdepth := hm.depth
    rw [Int.zero_add] at hts hdepth
    exact ⟨hdepth, hts⟩
  · exact hlevel (by simpa [Reply.ofScript] using hf)

/-- A label in a loop that carries a label itself: the outer one stands on level zero, the inner one
takes back the level of the body, and the render faults behind it, still one level in. -/
theorem indentation_balanced_labels :
    let c : Context := { program := {} }
    let inner := .stmt (.labeled 1 (.ofText "b") (.stmt (.expression (.expr .bare))))
    let loop := .stmt (.while .null (.stmt (.block (.list [.stmt .continue, inner]))))
    let v := .stmt (.labeled 0 (.ofText "a") loop)
    (Call.statement v).script? c = some (c.statement v) ∧
      ((Call.statement v).reply c).fault ≠ none ∧ level ((Call.statement v).reply c).tokens = 1 ∧
      ∀ ts m, Step.Passes {} (c.statement v).steps ts m → m.depth = level ts ∧ 0 ≤ level ts :=
  ⟨rfl, by decide, by decide, (indentation_balanced {} {} (.statement _) rfl).2.1⟩

end Call

end Scribe
