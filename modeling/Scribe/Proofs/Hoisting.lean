import Scribe.Proofs.CodeRoles
import Scribe.Proofs.Locals
import Scribe.Render.Member

/-!
# Variables are declared before they are used

The body of a function opens with a line for each variable that the scan for variables finds in it.
`Context.declared_before_use`: in a method that renders, each function body writes those lines, one
for each variable and no others, before its statements, and what is declared anywhere in the
statements, in the scope of the body, is among those variables.

That no other line declares a variable is a law of all rendered scripts, `Script.Fits.quiet`: outside
of the bodies of functions no name follows `var `.
-/

namespace Scribe

open Script

/-! ### Function bodies in a sequence of steps -/

namespace Step

/-- Every function body that opens is closed, and no other. -/
structure Balanced (steps : List Step) : Prop where
  closed : steps.count .leave = steps.count .enter
  nested : ∀ before after, steps = before ++ after → before.count .leave ≤ before.count .enter

/-- No variable is declared outside of the function bodies in the steps. -/
structure Quiet (steps : List Step) : Prop extends Balanced steps where
  first : ∀ name target rest, steps ≠ .token (.declaration name (some target)) :: rest
  silent : ∀ before name target after,
    steps = before ++ .token (.text "var ") :: .token (.declaration name (some target)) :: after →
      before.count .leave < before.count .enter

/-- Whether a step neither opens nor closes a function body and introduces no name. -/
def isPlain : Step → Bool
  | .enter | .leave | .token (.declaration ..) => false
  | _ => true

variable {a b : List Step}

theorem Balanced.append (ha : Balanced a) (hb : Balanced b) : Balanced (a ++ b) := by
  refine ⟨?_, fun before after he => ?_⟩
  · rw [List.count_append, List.count_append, ha.closed, hb.closed]
  · rcases List.append_eq_append_iff.1 he with ⟨as, rfl, hbs⟩ | ⟨bs, has, -⟩
    · have := hb.nested as after hbs
      rw [List.count_append, List.count_append, ha.closed]
      omega
    · exact ha.nested before bs has

theorem Balanced.of_forall (h : ∀ s ∈ a, s ≠ .enter ∧ s ≠ .leave) : Balanced a := by
  have hcount (l : List Step) (hl : ∀ s ∈ l, s ∈ a) : l.count .leave = 0 :=
    List.count_eq_zero.2 fun hm => (h _ (hl _ hm)).2 rfl
  refine ⟨?_, fun before after he => ?_⟩
  · rw [hcount a fun _ => id, List.count_eq_zero.2 fun hm => (h _ hm).1 rfl]
  · rw [hcount before fun s hs => by rw [he]; exact List.mem_append_left _ hs]
    exact Nat.zero_le _

namespace Quiet

theorem nil : Quiet [] := by
  refine ⟨.of_forall (List.forall_mem_nil _), fun name target rest he => ?_, fun before name target after he => ?_⟩
  · cases he
  · exact absurd he.symm (List.append_ne_nil_of_right_ne_nil before (List.cons_ne_nil _ _))

theorem single {s : Step} (hs : s.isPlain = true) : Quiet [s] := by
  refine ⟨.of_forall (List.forall_mem_singleton.2 ⟨?_, ?_⟩), fun name target rest h => ?_,
    fun before name target after h => ?_⟩
  · rintro rfl
    cases hs
  · rintro rfl
    cases hs
  · obtain ⟨rfl, -⟩ := List.cons.inj h
    cases hs
  · have hlen := congrArg List.length h
    simp only [List.length_append, List.length_cons, List.length_nil] at hlen
    omega

theorem append (ha : Quiet a) (hb : Quiet b) : Quiet (a ++ b) := by
  refine ⟨ha.toBalanced.append hb.toBalanced, fun name target rest he => ?_,
    fun before name target after he => ?_⟩
  · cases a with
    | nil => exact hb.first name target rest he
    | cons s a =>
      obtain ⟨rfl, -⟩ := List.cons.inj he
      exact ha.first name target a rfl
  · rcases List.append_eq_append_iff.1 he with ⟨as, rfl, hbs⟩ | ⟨bs, has, hbs⟩
    · have := hb.silent as name target after hbs
      rw [List.count_append, List.count_append, ha.closed]
      omega
    · -- The pair stands in `a`, or at the start of `b`, or across the two.
      rcases List.cons_eq_append_iff.1 hbs with ⟨-, rfl⟩ | ⟨cs, rfl, hcs⟩
      · exact absurd (hb.silent [] name target after rfl) (Nat.lt_irrefl _)
      · rcases List.cons_eq_append_iff.1 hcs with ⟨-, rfl⟩ | ⟨ds, rfl, -⟩
        · exact absurd rfl (hb.first name target after)
        · exact ha.silent before name target ds has

/-- The body of a function is closed to what is around it. -/
theorem function (h : Balanced a) : Quiet (.enter :: a ++ [.leave]) := by
  have hnested : ∀ before after, a ++ [.leave] = before ++ after → after ≠ [] →
      before.count .leave ≤ before.count .enter := by
    intro before after he hne
    rcases List.append_eq_append_iff.1 he with ⟨as, rfl, has⟩ | ⟨bs, has, -⟩
    · rcases List.singleton_eq_append_iff.1 has with ⟨rfl, -⟩ | ⟨-, rfl⟩
      · rw [List.append_nil]
        exact Nat.le_of_eq h.closed
      · exact absurd rfl hne
    · exact h.nested before bs has
  have hcount (l : List Step) : (Step.enter :: l).count .leave = l.count .leave :=
    List.count_cons_of_ne Step.noConfusion
  have hcount' (l : List Step) : (Step.enter :: l).count .enter = l.count .enter + 1 :=
    List.count_cons_self
  have hlast (l : List Step) : (l ++ [Step.leave]).count .leave = l.count .leave + 1 := by
    rw [List.count_append, List.count_singleton_self]
  have hlast' (l : List Step) : (l ++ [Step.leave]).count .enter = l.count .enter := by
    rw [List.count_append, List.count_cons_of_ne Step.noConfusion, List.count_nil]
    rfl
  refine ⟨⟨?_, fun before after he => ?_⟩, fun name target rest he => ?_,
    fun before name target after he => ?_⟩
  · show (Step.enter :: (a ++ [Step.leave])).count .leave = (Step.enter :: (a ++ [Step.leave])).count .enter
    rw [hcount, hcount', hlast, hlast', h.closed]
  · cases before with
    | nil => exact Nat.le_refl _
    | cons s before =>
      obtain ⟨rfl, hbefore⟩ := List.cons.inj he
      rw [hcount, hcount']
      by_cases hne : after = []
      · subst hne
        obtain rfl : a ++ [.leave] = before := hbefore.trans (List.append_nil before)
        exact Nat.le_of_eq (by rw [hlast, hlast', h.closed])
      · have := hnested before after hbefore hne
        omega
  · exact Step.noConfusion (List.cons.inj he).1
  · cases before with
    | nil => exact Step.noConfusion (List.cons.inj he).1
    | cons s before =>
      obtain ⟨rfl, hbefore⟩ := List.cons.inj he
      have := hnested before _ hbefore (List.cons_ne_nil _ _)
      rw [hcount, hcount']
      omega

end Quiet

end Step

/-! ### Rendered scripts are quiet -/

namespace Script

open Step

variable {a b d s : Script}

/-- A script that declares no variable outside of the function bodies in it, unless it faults. -/
def IsQuiet (s : Script) : Prop := s.fault = none → Quiet s.steps

namespace IsQuiet

theorem empty : IsQuiet ∅ := fun _ => .nil

theorem fail (f : Fault) : IsQuiet (fail f) := fun hf => absurd hf (Option.some_ne_none f)

theorem step {s : Step} (hs : s.isPlain = true) : IsQuiet (step s) := fun _ => .single hs

theorem token {t : Token} (ht : (Step.token t).isPlain = true) : IsQuiet (token t) := .step ht

theorem append (ha : IsQuiet a) (hb : IsQuiet b) : IsQuiet (a ++ b) := by
  intro hf
  obtain ⟨hfa, hfb⟩ := fault_append_eq_none.1 hf
  rw [steps_append_of_none hfa]
  exact (ha hfa).append (hb hfb)

theorem congr (hs : b.steps = a.steps) (hf : b.fault = a.fault) (h : IsQuiet a) : IsQuiet b := by
  intro hb
  rw [hs]
  exact h (hf.symm.trans hb)

theorem indented (h : IsQuiet s) : IsQuiet (indented s) :=
  ((token (t := .indent) rfl).append h).append (token (t := .outdent) rfl)

theorem body (h : IsQuiet s) : IsQuiet (body s) :=
  ((step (s := .openBody) rfl).append h).append (step (s := .closeBody) rfl)

/-- A text before a name, other than the word that declares a variable. -/
theorem word_name {word : String} (hw : word ≠ "var ") (h : IsName s) :
    IsQuiet (Script.text word ++ s) := by
  intro hf
  cases h with
  | fail f => cases hf
  | token name target =>
    have hsteps : (Script.text word ++ Script.token (.declaration name target)).steps =
        [.token (.text word), .token (.declaration name target)] := rfl
    rw [hsteps]
    refine ⟨.of_forall ?_, fun name target rest he => ?_, fun before name target after he => ?_⟩
    · simp
    · cases he
    · have hlen := congrArg List.length he
      simp only [List.length_append, List.length_cons, List.length_nil] at hlen
      obtain rfl := List.eq_nil_of_length_eq_zero (l := before) (by omega)
      exact absurd (Token.text.inj (Step.token.inj (List.cons.inj he).1)) hw

/-- Names after a text that does not declare variables. -/
theorem names {word : String} (hw : word ≠ "var ") {names : List Script}
    (h : ∀ n ∈ names, IsName n) : IsQuiet (Script.text word ++ commaSeparated names) := by
  unfold commaSeparated
  induction names generalizing word with
  | nil => exact .append (.token rfl) .empty
  | cons n names ih =>
    have hn := word_name hw (h n (List.mem_cons_self ..))
    have hcomma : ", " ≠ "var " := by decide
    have hrest := ih hcomma fun m hm => h m (List.mem_cons_of_mem _ hm)
    cases names with
    | nil => exact hn
    | cons m names =>
      refine .congr ?_ (by simp [joined]) (hn.append hrest)
      cases hfn : n.fault <;> simp [joined, steps_append, hfn]

end IsQuiet

/-- The lines that declare variables hold no bodies. -/
theorem Declares.balanced (h : Declares d) (hf : d.fault = none) : Balanced d.steps := by
  cases h with
  | fail f => cases hf
  | @lines entry names h =>
    obtain ⟨-, hlines⟩ := fault_append_eq_none.1 hf
    rw [steps_append_of_none rfl]
    refine .append (Quiet.single rfl).toBalanced ?_
    clear hf
    induction names with
    | nil => exact Quiet.nil.toBalanced
    | cons n names ih =>
      obtain ⟨hn, hr⟩ := fault_append_eq_none.1 hlines
      have hrest := ih (fun m hm => h m (List.mem_cons_of_mem _ hm)) hr
      rw [List.map_cons, concat, List.foldr_cons, steps_append_of_none hn]
      refine .append ?_ hrest
      cases h n (List.mem_cons_self ..) with
      | fail f => cases hn
      | token name target =>
        refine .of_forall (a := [.token (.text "var "), .token (.declaration name target),
          .token (.text ";"), .token .lineBreak]) ?_
        simp

/-- A function declares its variables for itself. -/
theorem IsQuiet.function (hd : Declares d) (hs : IsQuiet s) :
    IsQuiet (Script.indented (Script.step .enter ++ d ++ Script.body s ++ Script.step .leave)) := by
  refine IsQuiet.indented fun hf => ?_
  obtain ⟨hfb, -⟩ := fault_append_eq_none.1 hf
  obtain ⟨hfd, hfs⟩ := fault_append_eq_none.1 hfb
  obtain ⟨-, hfd'⟩ := fault_append_eq_none.1 hfd
  rw [steps_append_of_none hfb, steps_append_of_none hfd, steps_append_of_none rfl]
  exact Quiet.function ((hd.balanced hfd').append (hs.body hfs).toBalanced)

/-- Outside of function bodies no variable is declared. -/
theorem Fits.quiet {r : Role} (h : Fits r s) : IsQuiet s := by
  induction h with
  | empty => exact .empty
  | fail f => exact .fail f
  | token h => exact .token (by cases ‹Token› <;> first | rfl | cases h)
  | names hs h => exact .names hs h
  | append _ _ ha hb => exact ha.append hb
  | delayed _ h => exact h
  | indented _ h => exact h.indented
  | wrapped _ _ _ ha hb hc =>
    exact (((ha.append (.token rfl)).append hb).append hc).append (.token rfl)
  | function hd _ hs => exact .function hd hs
  | inline _ h => exact h
  | terminate needed => exact .step rfl
  | ownAppend _ _ ha hb => exact ha.append hb
  | ownIndented _ h => exact h.indented
  | body _ h => exact h.body.indented
  | first => exact .step rfl
  | next _ h => exact h.append (.step rfl)
  | own _ _ ha hb => exact ha.append hb
  | header _ _ _ _ ha hs hc hi =>
    exact ((((((((ha.append (.step rfl)).append (.step rfl)).append hs).append
      (.token rfl)).append hc).append (.token rfl)).append (.step rfl)).append hi).append (.step rfl)
  | started _ h => exact h
  | label name => exact .append (.step rfl) (.step rfl)
  | none => exact .empty
  | broken f => exact .fail f
  | follow _ _ ha hb => exact ha.append hb
  | later _ h => exact h

end Script

/-! ### Function bodies -/

theorem nodup_eraseDups {α : Type} [BEq α] [LawfulBEq α] (l : List α) : l.eraseDups.Nodup := by
  induction hn : l.length using Nat.strongRecOn generalizing l with
  | _ n ih =>
    cases l with
    | nil => exact List.nodup_nil
    | cons a l =>
      rw [List.eraseDups_cons, List.nodup_cons]
      have hlen := List.length_filter_le (fun b => !b == a) l
      refine ⟨?_, ih _ (by rw [← hn, List.length_cons]; omega) _ rfl⟩
      rw [List.mem_eraseDups, List.mem_filter]
      simp

/-- The variable that is declared at a site, where one is. -/
def Site.declared? : Site → Option VariableId
  | .expr (.expr (.declare (.entity ⟨.variable, i⟩))) => some ⟨i⟩
  | .stmt (.stmt (.forEach (.entity ⟨.variable, i⟩) _ _)) => some ⟨i⟩
  | .stmt (.stmt (.fixed (.entity ⟨.variable, i⟩) _ _)) => some ⟨i⟩
  | _ => none

theorem Site.declared?_mem_locals {s : Site} {id : VariableId} (h : s.declared? = some id) :
    id ∈ s.slot.locals := by
  unfold declared? at h
  split at h <;> cases h
  · exact List.mem_singleton.2 rfl
  · exact List.mem_append_left _ (List.mem_append_left _ (List.mem_singleton.2 rfl))
  · exact List.mem_append_left _ (List.mem_append_left _ (List.mem_singleton.2 rfl))

/-- The name under which a variable is declared. -/
def Program.declaredName (p : Program) (id : VariableId) : Scalar :=
  match (p.localVariable id).name with
  | .scalar name => name.mapText Identifier.declared
  | _ => .null

/-- The line that declares a variable. -/
def Program.declarationLine (p : Program) (id : VariableId) : List Token :=
  [.text "var ", .declaration (p.declaredName id) (some id.target), .text ";", .lineBreak]

theorem Program.runs_declarationLine (p : Program) {id : VariableId}
    (hf : (text "var " ++ p.variableDeclaration (.entity id.entity) ++ text ";" ++ lineBreak).fault =
      none) (l : Layout) :
    Runs (text "var " ++ p.variableDeclaration (.entity id.entity) ++ text ";" ++ lineBreak) l
      (p.declarationLine id) l := by
  have hname : (p.variableDeclaration (.entity id.entity)).fault = none :=
    Within.fault (.left (.left (.right .refl))) hf
  have hrun : Runs (p.variableDeclaration (.entity id.entity)) l
      [.declaration (p.declaredName id) (some id.target)] l := by
    obtain ⟨i⟩ := id
    unfold declaredName
    change (declaration (p.localVariable ⟨i⟩).name _).fault = none at hname
    change Runs (declaration (p.localVariable ⟨i⟩).name _) l _ l
    cases hv : (p.localVariable ⟨i⟩).name with
    | scalar s => exact ⟨rfl, rfl, rfl⟩
    | _ =>
      rw [hv] at hname
      cases hname
  exact (((runs_text "var " l).append hrun).append (runs_text ";" l)).append (runs_lineBreak l)

namespace Context

variable (c : Context)

/-- The bodies in a method: its own and those of the functions that are written in it. -/
def HasBody (root body : Value) : Prop :=
  body = root ∨ body.isNull = false ∧ ∃ parameters type,
    Site.Reaches c (.stmt root) (.expr (.expr (.function parameters body type)))

/-- The use of a variable is a reference to it. -/
theorem variableUse_refers {i : Nat}
    (hf : (c.program.variableUse (.entity ⟨.variable, i⟩)).fault = none) :
    ∃ name tooltip, c.program.variableUse (.entity ⟨.variable, i⟩) =
      token (.reference name tooltip (some (.entity ⟨.variable, i⟩))) := by
  exact described_eq hf

/-- Where a variable is declared, a reference to it is written. -/
theorem declared?_refers {s : Site} {id : VariableId} (h : s.declared? = some id)
    (hf : (s.script c).fault = none) :
    ∃ name tooltip, Within (token (.reference name tooltip (some id.target))) (s.script c) := by
  have huse {i : Nat} (hw : Within (c.program.variableUse (.entity ⟨.variable, i⟩)) (s.script c)) :
      ∃ name tooltip,
        Within (token (.reference name tooltip (some (.entity ⟨.variable, i⟩)))) (s.script c) := by
    obtain ⟨name, tooltip, he⟩ := c.variableUse_refers (hw.fault hf)
    exact ⟨name, tooltip, he ▸ hw⟩
  unfold Site.declared? at h
  split at h <;> cases h
  · exact huse (.later .refl)
  · exact huse (.later (.left (.left (.left (.left (.right .refl))))))
  · exact huse (.later (.left (.left (.left (.left (.right .refl))))))

/-- The declarations of a body, one line for each of its variables. -/
theorem declarations_tokens {body : Value} (hf : (c.declarations body).fault = none) :
    ∃ vars, c.program.hoisted body = .ok vars ∧ ∀ l,
      Runs (c.declarations body) l (vars.flatMap c.program.declarationLine) l := by
  obtain ⟨vars, hv, he⟩ := given_eq hf
  rw [declarations, he] at hf ⊢
  obtain ⟨-, hlines⟩ := fault_append_eq_none.1 hf
  refine ⟨vars, hv, fun l => ?_⟩
  have hlog : Runs (step (.log (.hoisted vars.length))) l [] l := ⟨rfl, rfl, rfl⟩
  refine hlog.append ?_
  clear hv he hf hlog
  induction vars with
  | nil => exact ⟨rfl, rfl, rfl⟩
  | cons v vars ih =>
    obtain ⟨hfirst, hrest⟩ := fault_append_eq_none.1 hlines
    exact (c.program.runs_declarationLine hfirst l).append (ih hrest)

/-- A function body writes the lines of its variables, and then its statements. -/
theorem functionBody_tokens {body : Value} {statements : Script}
    (hf : (c.functionBody body statements).fault = none) :
    ∃ vars, c.program.hoisted body = .ok vars ∧ ∀ l, ∃ m, (c.functionBody body statements).tokens l =
      vars.flatMap c.program.declarationLine ++ (Script.body statements).tokens m := by
  unfold functionBody at hf ⊢
  split_ifs at hf ⊢
  swap
  · cases hf
  simp only [fault_append_eq_none] at hf
  obtain ⟨⟨⟨-, hfd⟩, hfs⟩, -⟩ := hf
  obtain ⟨vars, hv, hrun⟩ := c.declarations_tokens hfd
  refine ⟨vars, hv, fun l => ⟨l.enter, ?_⟩⟩
  have hall := ((Runs.append (a := step .enter) ⟨rfl, rfl, rfl⟩ (hrun l.enter)).append
    ⟨hfs, rfl, rfl⟩).append (b := step .leave) ⟨rfl, rfl, rfl⟩
  exact hall.tokens.trans (by simp [Step.apply])

/-- The variables of a body that renders are those that are declared in it, each once. -/
theorem hoisted_eq {body : Value} {vars : List VariableId} (hf : (c.stmtSlot body).fault = none)
    (hv : c.program.hoisted body = .ok vars) : vars = body.locals.eraseDups := by
  cases body with
  | scalar s => cases s <;> cases hf
  | stmt s => exact (Except.ok.inj hv).symm
  | _ => cases hf

/-- Every body in a method is written as a function body. -/
theorem HasBody.within {id : MethodId} {d : MethodDetails}
    (hd : (c.program.method id).declared = some d) (hb : d.body.isNull = false)
    (hf : (c.methodDeclaration (.entity ⟨.method, id.index⟩)).fault = none) {body : Value}
    (h : c.HasBody d.body body) :
    Within (c.functionBody body (c.stmtSlot body))
      (c.methodDeclaration (.entity ⟨.method, id.index⟩)) := by
  -- The method writes its own body, which holds the others.
  have hmethod : Within (c.methodDetails id d)
      (c.methodDeclaration (.entity ⟨.method, id.index⟩)) := by
    obtain ⟨name, -, hn⟩ := given_eq hf
    change Within _ (given _ _)
    rw [hn]
    change Within _ (_ ++ ((c.program.method id).declared.elim _ _))
    rw [hd]
    exact .right .refl
  have hroot : Within (c.functionBody d.body (c.stmtSlot d.body)) (c.methodDetails id d) := by
    have hopt : d.body.optionally (c.stmtSlot d.body) = c.stmtSlot d.body := by
      rw [Value.optionally, hb]
      rfl
    rw [methodDetails, hopt]
    exact .left (.right (.indented .refl))
  have hown := hroot.trans hmethod
  rcases h with rfl | ⟨hnull, parameters, type, hreach⟩
  · exact hown
  · have hfown := hown.fault hf
    have hstmt : Within (c.stmtSlot d.body) (c.functionBody d.body (c.stmtSlot d.body)) :=
      c.within_functionBody hfown .refl
    have hexpr := hreach.within (hstmt.fault hfown)
    have hfun : Within (c.functionBody body (c.stmtSlot body))
        (c.exprSlot (.expr (.function parameters body type))) := by
      have hopt : body.optionally (c.stmtSlot body) = c.stmtSlot body := by
        rw [Value.optionally, hnull]
        rfl
      rw [exprSlot, expr, hopt]
      exact .later (.left (.right (.indented .refl)))
    exact ((hfun.trans hexpr).trans hstmt).trans hown

/-- In a method that renders, every body declares its variables before its statements, each of them
once, and no others; what the statements declare in the scope of the body is among them. -/
theorem declared_before_use {id : MethodId} {d : MethodDetails}
    (hd : (c.program.method id).declared = some d) (hb : d.body.isNull = false)
    (hf : (c.methodDeclaration (.entity ⟨.method, id.index⟩)).fault = none) {body : Value}
    (h : c.HasBody d.body body) :
    ∃ (vars : List VariableId) (before after : List Token) (l : Layout),
      (c.methodDeclaration (.entity ⟨.method, id.index⟩)).outcome.tokens =
        before ++ (vars.flatMap c.program.declarationLine ++
          (Script.body (c.stmtSlot body)).tokens l) ++ after ∧
      vars.Nodup ∧
      (∀ pre name target post, (c.stmtSlot body).steps =
          pre ++ .token (.text "var ") :: .token (.declaration name (some target)) :: post →
        pre.count .leave < pre.count .enter) ∧
      ∀ s v, Site.ReachesInScope c (.stmt body) s → s.declared? = some v →
        v ∈ vars ∧ ∃ pre post m name tooltip,
          (Script.body (c.stmtSlot body)).tokens l = pre ++ (s.script c).tokens m ++ post ∧
          .reference name tooltip (some v.target) ∈ (s.script c).tokens m := by
  have hwithin := HasBody.within c hd hb hf h
  have hfb := hwithin.fault hf
  obtain ⟨vars, hv, htokens⟩ := c.functionBody_tokens hfb
  have hstmt : Within (c.stmtSlot body) (c.functionBody body (c.stmtSlot body)) :=
    c.within_functionBody hfb .refl
  have hfs := hstmt.fault hfb
  obtain rfl := c.hoisted_eq hfs hv
  obtain ⟨l, before, after, houtcome⟩ := hwithin.tokens hf {}
  obtain ⟨m, hm⟩ := htokens l
  refine ⟨body.locals.eraseDups, before, after, m, ?_, nodup_eraseDups _, ?_, fun s v hs hv => ⟨?_, ?_⟩⟩
  · rw [outcome_tokens, houtcome, hm]
  · exact fun pre name target post he => ((c.stmtSlot_fits body).quiet hfs).silent _ _ _ _ he
  · rw [List.mem_eraseDups]
    exact Site.locals_of_reaches hs (Site.declared?_mem_locals hv)
  · have hpart : Within (s.script c) (c.stmtSlot body) := hs.reaches.within hfs
    obtain ⟨name, tooltip, href⟩ := c.declared?_refers hv (hpart.fault hfs)
    obtain ⟨n, pre, post, he⟩ := Within.tokens (.body hpart) (by rw [fault_body, hfs]) m
    obtain ⟨k, pre', post', he'⟩ := href.tokens (hpart.fault hfs) n
    refine ⟨pre, post, n, name, tooltip, he, ?_⟩
    rw [he']
    simp

/-- A function in a method, with a loop over a variable of its own. -/
theorem declared_before_use_loop :
    let loop := .stmt (.forEach (.entity ⟨.variable, 1⟩) (.expr .this) (.stmt (.block (.list []))))
    let inner := .stmt (.block (.list [loop]))
    let body := .stmt (.block (.list [.stmt (.expression (.expr (.assign
      (.expr (.declare (.entity ⟨.variable, 0⟩))) (.expr (.function (.list []) inner .null)))))]))
    let details : MethodDetails :=
      ⟨.null, .null, .null, .null, .null, .null, .null, .null, body, .null, .null⟩
    let c : Context := { program := {
      locals := #[{ name := .ofText "x" }, { name := .ofText "y" }],
      methods := #[{ name := .ofText "M", parameters := .list [], declared := some details }] } }
    ∃ (vars : List VariableId) (before after : List Token) (l : Layout),
      (c.methodDeclaration (.entity ⟨.method, 0⟩)).outcome.tokens =
        before ++ (vars.flatMap c.program.declarationLine ++
          (Script.body (c.stmtSlot inner)).tokens l) ++ after ∧ ⟨1⟩ ∈ vars := by
  intro loop inner body details c
  have hin : c.HasBody body inner := by
    refine .inr ⟨rfl, .list [], .null, ?_⟩
    exact ((Relation.ReflTransGen.refl.tail (List.mem_singleton.2 rfl)).tail
      (List.mem_singleton.2 rfl)).tail (List.mem_cons_of_mem _ (List.mem_singleton.2 rfl))
  have hd : (c.program.method ⟨0⟩).declared = some details := rfl
  obtain ⟨vars, before, after, l, htokens, -, -, hdecl⟩ := c.declared_before_use hd rfl rfl hin
  have hloop : Site.ReachesInScope c (.stmt inner) (.stmt loop) :=
    .tail .refl ⟨rfl, List.mem_singleton.2 rfl⟩
  exact ⟨vars, before, after, l, htokens, (hdecl _ ⟨1⟩ hloop rfl).1⟩

end Context

end Scribe
