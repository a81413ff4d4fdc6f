import Scribe.Proofs.Descent
import Scribe.Proofs.Members
import Scribe.Proofs.Retelling

/-!
# Statements in terms of simpler ones

Three statements are written with the words of others: `using` as a `try` with a `finally`, the guard
of a catch clause as an `if`, and a fault block as a last catch clause that throws again. Trees that
are put in those words from the start have the same text.

`Stmt.Lowers` has one case for each of them, and `Value.Lowered` closes it under the statements around
the replaced one, as long as it is an item of a block. `Context.lowered_retells` is the step: what
stands around a replaced statement goes on from the same layout. `Context.lowering_keeps_text`: the
text of a statement and that of a method stay the same, however often statements in them are replaced.
-/

namespace Scribe

open Script

namespace Value

/-- A block of the given statements. -/
def blockOf (statements : List Value) : Value := .stmt (.block (.list statements))

/-- A block that calls a method on a target. -/
def callOf (method : MethodId) (target : Value) : Value :=
  .blockOf [.stmt (.expression (.expr (.invoke (.expr (.method (.entity method.entity) target))
    (.list []))))]

end Value

namespace Program

/-- A method `Dispose` that can be referred to. -/
structure IsDispose (p : Program) (id : MethodId) : Prop where
  name : (p.method id).name = .ofText "Dispose"
  shown : (p.methodName (.entity id.entity)).fault = none

/-- A variable named `e`. -/
def IsCaught (p : Program) (v : Value) : Prop :=
  ∃ i, v = .entity ⟨.variable, i⟩ ∧ (p.localVariable ⟨i⟩).name = .ofText "e"

/-- A name for what a fault block catches: none at all, or `e`. -/
def BindsCaught (p : Program) (bound : Value) : Prop := bound = .null ∨ p.IsCaught bound

/-- An expression that is written `e`. -/
def RefersToCaught (p : Program) (thrown : Value) : Prop :=
  thrown = .expr (.snippet (.ofText "e")) ∨
    ∃ bound, thrown = .expr (.variable bound) ∧ p.IsCaught bound

end Program

open Value (blockOf callOf)

/-- A statement in terms of simpler ones. -/
inductive Stmt.Lowers (p : Program) : Stmt → Stmt → Prop
  /-- A resource that is assigned to a variable is assigned first, and the variable disposed of. -/
  | assigned {resource body bound : Value} {dispose : MethodId} :
    resource.assignedVariable? = some bound → p.IsDispose dispose →
    Lowers p (.using resource body) (.block (.list [.stmt (.expression resource),
      .stmt (.try body (.list []) (blockOf []) (callOf dispose (.expr (.variable bound))))]))
  /-- Any other resource is disposed of itself. It stands behind the body then, so it must declare no
  variable: those of the body would come first. -/
  | resource {resource body : Value} {dispose : MethodId} :
    resource.assignedVariable? = none → resource.locals = [] → p.IsDispose dispose →
    Lowers p (.using resource body) (.try body (.list []) (blockOf []) (callOf dispose resource))
  /-- A guard is a condition around the handler. It stands before it then, and must declare no variable
  either. -/
  | guarded {body handler bound guard fault last : Value} (before after : List Value) :
    guard.isNull = false → guard.locals = [] →
    Lowers p (.try body (.list (before ++ .clause (.catch handler bound guard) :: after)) fault last)
      (.try body (.list (before ++ .clause (.catch
        (blockOf [.stmt (.condition guard handler (blockOf []))]) bound .null) :: after)) fault last)
  /-- A fault block is the last clause, and throws again what it caught. -/
  | fault {body bound thrown last : Value} {clauses statements : List Value} :
    statements ≠ [] → p.BindsCaught bound → p.RefersToCaught thrown →
    Lowers p (.try body (.list clauses) (blockOf statements) last)
      (.try body (.list (clauses ++ [.clause (.catch
        (blockOf (statements ++ [.stmt (.throw thrown)])) bound .null)])) (blockOf []) last)

/-- One statement in a tree is replaced: an item of a block, at any depth, but neither in the header of
a loop nor in a function. -/
inductive Value.Lowered (p : Program) : Value → Value → Prop
  | item {s t : Stmt} (before after : List Value) : s.Lowers p t →
    Lowered p (blockOf (before ++ .stmt s :: after)) (blockOf (before ++ .stmt t :: after))
  | block {v w : Value} (before after : List Value) : Lowered p v w →
    Lowered p (blockOf (before ++ v :: after)) (blockOf (before ++ w :: after))
  | labeled {mark : Nat} {label v w : Value} : Lowered p v w →
    Lowered p (.stmt (.labeled mark label v)) (.stmt (.labeled mark label w))
  | yes {test v w no : Value} : Lowered p v w →
    Lowered p (.stmt (.condition test v no)) (.stmt (.condition test w no))
  | no {test yes v w : Value} : Lowered p v w →
    Lowered p (.stmt (.condition test yes v)) (.stmt (.condition test yes w))
  | for {start test increment v w : Value} : Lowered p v w →
    Lowered p (.stmt (.for start test increment v)) (.stmt (.for start test increment w))
  | forEach {bound source v w : Value} : Lowered p v w →
    Lowered p (.stmt (.forEach bound source v)) (.stmt (.forEach bound source w))
  | using {resource v w : Value} : Lowered p v w →
    Lowered p (.stmt (.using resource v)) (.stmt (.using resource w))
  | fixed {bound source v w : Value} : Lowered p v w →
    Lowered p (.stmt (.fixed bound source v)) (.stmt (.fixed bound source w))
  | while {test v w : Value} : Lowered p v w →
    Lowered p (.stmt (.while test v)) (.stmt (.while test w))
  | do {test v w : Value} : Lowered p v w → Lowered p (.stmt (.do test v)) (.stmt (.do test w))
  | lock {subject v w : Value} : Lowered p v w →
    Lowered p (.stmt (.lock subject v)) (.stmt (.lock subject w))
  | try {v w catches fault last : Value} : Lowered p v w →
    Lowered p (.stmt (.try v catches fault last)) (.stmt (.try w catches fault last))
  | catch {body bound test fault last v w : Value} (before after : List Value) : Lowered p v w →
    Lowered p (.stmt (.try body (.list (before ++ .clause (.catch v bound test) :: after)) fault last))
      (.stmt (.try body (.list (before ++ .clause (.catch w bound test) :: after)) fault last))
  | fault {body catches v w last : Value} : Lowered p v w →
    Lowered p (.stmt (.try body catches v last)) (.stmt (.try body catches w last))
  | last {body catches fault v w : Value} : Lowered p v w →
    Lowered p (.stmt (.try body catches fault v)) (.stmt (.try body catches fault w))
  | case {subject test v w : Value} (before after : List Value) : Lowered p v w →
    Lowered p (.stmt (.switch subject (.list (before ++ .clause (.case v test) :: after))))
      (.stmt (.switch subject (.list (before ++ .clause (.case w test) :: after))))
  | default {subject v w : Value} (before after : List Value) : Lowered p v w →
    Lowered p (.stmt (.switch subject (.list (before ++ .clause (.default v) :: after))))
      (.stmt (.switch subject (.list (before ++ .clause (.default w) :: after))))

/-! ### Resources -/

open Token (ReadAlike Spell)
open Layout Flat

theorem Program.IsDispose.spells {p : Program} {id : MethodId} (h : p.IsDispose id) :
    Spells (p.methodName (.entity id.entity)) "Dispose".toList := by
  have hname {leadsTo : MethodId} (hf : (p.methodReference id leadsTo).fault = none) :
      Spells (p.methodReference id leadsTo) "Dispose".toList := by
    unfold Program.methodReference at hf ⊢
    obtain ⟨tooltip, -, ht⟩ := given_eq hf
    have hreferenced : Identifier.referenced "Dispose" = "Dispose" := by decide
    rw [ht, h.name, ← hreferenced]
    exact .token rfl fun _ => rfl
  have hf := h.shown
  simp only [Program.methodName, Id.entity] at hf ⊢
  split at hf
  · exact hname hf
  · exact hname hf
  · cases hf

/-- The end of a guarded resource, where `target` is what it is referred to by. -/
def released (target : List Token) : List Token :=
  [.lineBreak, .text "finally \x7b", .lineBreak] ++
    (.indent :: (target ++ [.text "Dispose();"] ++ [.lineBreak]) ++ [.outdent]) ++ [.text "\x7d"]

/-- The end of a `try` that calls a method on the target. -/
def called (target name : List Token) : List Token :=
  [.lineBreak, .text "finally"] ++ braces (line (target ++ name ++ [.text "(", .text ")"]))

theorem readAlike_released (target : List Token) {name : List Token}
    (h : Spell name "Dispose".toList) : ReadAlike (released target) (called target name) := by
  have hopen : ReadAlike [.text "finally \x7b"] [.text "finally", .text " \x7b"] :=
    Spell.readAlike (.one rfl) (.cons rfl (.one rfl)) (by decide) (by simp) (by simp)
  have hcall : ReadAlike [.text "Dispose();"] (name ++ [.text "(", .text ")", .text ";"]) :=
    Spell.readAlike (.one rfl) (h.append (.cons rfl (.cons rfl (.one rfl)))) (by decide)
      (by simp) (by simp)
  have := (((((ReadAlike.refl [.lineBreak]).append hopen).append
    (.refl [.lineBreak, .indent])).append (.refl target)).append hcall).append
    (.refl [.lineBreak, .outdent, .text "\x7d"])
  simpa [released, called, braces, line] using this

namespace Context

variable (c : Context) {d : Nat} {l m : Layout}

/-- What a call of a method writes behind its target. -/
theorem call_written {dispose : MethodId} (hd : c.program.IsDispose dispose) (target : Value)
    (hf : (target.asTarget (c.exprSlot target)).fault = none) :
    let call := c.exprSlot (.expr (.invoke (.expr (.method (.entity dispose.entity) target))
      (.list [])))
    call.fault = none ∧ ∃ name, Spell name "Dispose".toList ∧ call.written =
      (target.asTarget (c.exprSlot target)).written ++ name ++ [.text "(", .text ")"] := by
  intro call
  have hn := hd.spells
  have htarget := c.target_neutral target
  have harguments : Spells (parenthesized (commaSeparated (c.exprItems (.list []))))
      ['(', ')'] := by
    rw [exprItems, exprSlots]
    exact Spells.empty.parenthesized
  have hsame : call.fault = (target.asTarget (c.exprSlot target) ++
        c.program.methodName (.entity dispose.entity) ++
        parenthesized (commaSeparated (c.exprItems (.list [])))).fault ∧
      call.written = (target.asTarget (c.exprSlot target) ++
        c.program.methodName (.entity dispose.entity) ++
        parenthesized (commaSeparated (c.exprItems (.list [])))).written := by
    simp only [call, exprSlot, expr, Value.asCallee]
    exact ⟨rfl, rfl⟩
  have hf' := fault_append_eq_none.2 ⟨hf, hn.fault⟩
  refine ⟨hsame.1.trans (fault_append_eq_none.2 ⟨hf', harguments.fault⟩), _, hn.written, ?_⟩
  rw [hsame.2, (htarget.append hn.neutral).written_append harguments.neutral hf',
    htarget.written_append hn.neutral hf]
  rfl

/-- A block with one call is a line. -/
theorem callOf_placed (dispose : MethodId) (target : Value) :
    Placed (d + 1) (c.stmtSlot (callOf dispose target))
      (line (c.exprSlot (.expr (.invoke (.expr (.method (.entity dispose.entity) target))
        (.list [])))).written) := by
  have hline := (Placed.simple (.of_inline (d := d + 1) (c.exprSlot_fits (.expr (.invoke
    (.expr (.method (.entity dispose.entity) target)) (.list [])))))).append .empty
  rw [List.append_nil] at hline
  simp only [callOf, blockOf, stmtSlot, stmt, stmtItems, stmtSlots]
  exact hline

theorem runs_release (target : Value) (hf : (target.asTarget (c.exprSlot target)).fault = none)
    (hl : Ground d l) :
    Runs (indented (target.asTarget (c.exprSlot target) ++ text "Dispose();" ++ lineBreak)) l
      (.indent :: ((target.asTarget (c.exprSlot target)).written ++ [.text "Dispose();"] ++
        [.lineBreak]) ++ [.outdent]) l := by
  have hinline : Inline (target.asTarget (c.exprSlot target) ++ text "Dispose();" ++ lineBreak) :=
    .append (.append (.asTarget _ (c.exprSlot_fits target)) (.text _)) .lineBreak
  have htarget := c.target_neutral target
  have hwritten : (target.asTarget (c.exprSlot target) ++ text "Dispose();" ++ lineBreak).written =
      (target.asTarget (c.exprSlot target)).written ++ [.text "Dispose();"] ++ [.lineBreak] := by
    rw [(htarget.append (.text _)).written_append (Fits.law .lineBreak) (by simpa using hf),
      htarget.written_append (.text _) hf]
    rfl
  have := (Own.indented (Own.of_inline hinline)).runs (.indented hinline) (by simpa using hf) hl
  rwa [hwritten] at this

theorem runs_call {dispose : MethodId} (hd : c.program.IsDispose dispose) (target : Value)
    (hf : (target.asTarget (c.exprSlot target)).fault = none) (hl : Ground d l) :
    ∃ name, Spell name "Dispose".toList ∧
      Runs (braced (c.stmtSlot (callOf dispose target))) l
        (braces (line ((target.asTarget (c.exprSlot target)).written ++ name ++
          [.text "(", .text ")"]))) l := by
  obtain ⟨hcall, name, hname, hwritten⟩ := c.call_written hd target hf
  have hfault : (braced (c.stmtSlot (callOf dispose target))).fault = none := by
    simp only [callOf, blockOf, stmtSlot, stmt, stmtItems, stmtSlots, Value.isDeclaration]
    simpa [braced, concat, simple] using hcall
  have := (Own.braced (c.callOf_placed dispose target)).runs (.braced (c.stmtSlot_fits _)) hfault hl
  rw [hwritten] at this
  exact ⟨name, hname, this⟩

/-- What a guarded resource and the `try` that disposes of it write, with anything before the first of
them. `target` is how the resource is referred to. -/
theorem disposal_runs {dispose : MethodId} (hd : c.program.IsDispose dispose) (body target : Value)
    (hb : (body.optionally (c.stmtSlot body)).fault = none)
    (ht : (target.asTarget (c.exprSlot target)).fault = none) (hl : At d l) :
    ∃ ts us m, At d m ∧ ReadAlike ts us ∧
      (∀ {a : Script} {k : Layout} {before : List Token}, Runs a k before l →
        Runs (a ++ step .separator ++ text "try" ++ braced (body.optionally (c.stmtSlot body)) ++
          lineBreak ++ text "finally \x7b" ++ lineBreak ++
          indented (target.asTarget (c.exprSlot target) ++ text "Dispose();" ++ lineBreak) ++
          text "\x7d" ++ step (.terminate false)) k (before ++ ts) m) ∧
      Runs (c.stmt (.try body (.list []) (blockOf []) (callOf dispose target))) l us m := by
  have hbody : Runs (braced (body.optionally (c.stmtSlot body))) l.separator.1 _ _ :=
    ⟨by simpa [braced] using hb, rfl, rfl⟩
  have hground := (Fits.optionalBody body (c.stmtSlot_fits body)).ground_braced hb hl.separator.toAt
  obtain ⟨name, hname, hcall⟩ := c.runs_call hd target ht hground
  let opened := l.separator.2 ++ [.text "try"] ++
    (braced (body.optionally (c.stmtSlot body))).tokens l.separator.1
  let words := (target.asTarget (c.exprSlot target)).written
  refine ⟨opened ++ released words, opened ++ called words name, _, hground.toAt,
    .append (.refl _) (readAlike_released _ hname), fun {a k before} ha => ?_, ?_⟩
  · have hrun := ((((((((ha.append (runs_separator l)).append (runs_text "try" _)).append
      hbody).append (runs_lineBreak _)).append (runs_text "finally \x7b" _)).append
      (runs_lineBreak _)).append (c.runs_release target ht hground)).append
      (runs_text "\x7d" _)).append (runs_terminate hground)
    exact ⟨hrun.fault, hrun.tokens.trans (by simp [opened, words, released]), hrun.after⟩
  · have hrun := ((((((runs_separator l).append (runs_text "try" _)).append hbody).append
      (runs_empty _)).append (runs_empty _)).append (((runs_lineBreak _).append
      (runs_text "finally" _)).append hcall)).append (runs_terminate hground)
    simp only [stmt, catchItems, catchClauses]
    exact ⟨hrun.fault, hrun.tokens.trans (by simp [opened, words, called]), hrun.after⟩

theorem using_assigned {resource body bound : Value} {dispose : MethodId}
    (hr : resource.assignedVariable? = some bound) (hd : c.program.IsDispose dispose) :
    Retells d (c.stmt (.using resource body)) (c.stmt (.block (.list [.stmt (.expression resource),
      .stmt (.try body (.list []) (blockOf []) (callOf dispose (.expr (.variable bound))))]))) := by
  intro hf l hl
  have hdeclared : resource.isDeclaration = false := by
    unfold Value.assignedVariable? at hr
    split at hr <;> first | rfl | cases hr
  have hacquire : acquire resource (c.exprSlot resource) = simple (c.exprSlot resource) := by
    rw [acquire, hr]
    rfl
  have hassign : c.stmtSlot (.stmt (.expression resource)) =
      delayed fun _ => simple (c.exprSlot resource) := by
    rw [stmtSlot, stmt, hdeclared]
    rfl
  -- A reference to the variable is delayed, but for that it is what the resource is disposed of by.
  have hrelease : c.release resource (c.exprSlot resource) =
      c.program.variableUse bound ++ text "." ++ text "Dispose();" ++ lineBreak := by
    rw [release, hr]
  have htarget : (Value.expr (.variable bound)).asTarget (c.exprSlot (.expr (.variable bound))) =
      (delayed fun _ => c.program.variableUse bound) ++ text "." := by
    rw [exprSlot, expr]
    rfl
  rw [stmt, hacquire, hrelease] at hf ⊢
  obtain ⟨hsimple, hb, ht⟩ : (simple (c.exprSlot resource)).fault = none ∧
      (body.optionally (c.stmtSlot body)).fault = none ∧
      (c.program.variableUse bound).fault = none := by
    simpa [braced, and_assoc] using hf
  have hstays : Stays (simple (c.exprSlot resource)) :=
    (Fits.simple (.inline (c.exprSlot_fits resource))).stays
  obtain ⟨ts, us, m, hm, halike, hruns, htry⟩ := c.disposal_runs hd body (.expr (.variable bound)) hb
    (by rw [htarget]; simpa using ht) (hstays hsimple d l hl)
  have hrun : Runs (simple (c.exprSlot resource)) l _ _ := ⟨hsimple, rfl, rfl⟩
  have husing := hruns hrun
  have hblock := hrun.append (htry.append (runs_empty m))
  rw [htarget] at husing
  refine ⟨m, hm, _, _, ⟨husing.fault, husing.tokens, husing.after⟩, ?_,
    (ReadAlike.refl _).append halike⟩
  rw [List.append_nil] at hblock
  rw [stmt, stmtItems, stmtSlots, stmtSlots, stmtSlots, hassign, stmtSlot]
  exact ⟨hblock.fault, hblock.tokens, hblock.after⟩

theorem using_other {resource body : Value} {dispose : MethodId}
    (hr : resource.assignedVariable? = none) (hd : c.program.IsDispose dispose) :
    Retells d (c.stmt (.using resource body))
      (c.stmt (.try body (.list []) (blockOf []) (callOf dispose resource))) := by
  intro hf l hl
  have husing : c.stmt (.using resource body) = ∅ ++ step .separator ++ text "try" ++
      braced (body.optionally (c.stmtSlot body)) ++ lineBreak ++ text "finally \x7b" ++ lineBreak ++
      indented (resource.asTarget (c.exprSlot resource) ++ text "Dispose();" ++ lineBreak) ++
      text "\x7d" ++ step (.terminate false) := by
    rw [stmt, acquire, release, hr]
    rfl
  rw [husing] at hf ⊢
  obtain ⟨hb, ht⟩ : (body.optionally (c.stmtSlot body)).fault = none ∧
      (resource.asTarget (c.exprSlot resource)).fault = none := by
    simpa [braced] using hf
  obtain ⟨ts, us, m, hm, halike, hruns, htry⟩ := c.disposal_runs hd body resource hb ht hl
  exact ⟨m, hm, ts, us, hruns (runs_empty l), htry, halike⟩

/-! ### Guards -/

theorem exists_own_clause (d : Nat) (v : Value) : ∃ u, Own d (c.catchClause v) u := by
  cases v with
  | clause k =>
    cases k with
    | «catch» body bound guard =>
      rw [catchClause]
      have hbody : Statements (body.optionally (c.stmtSlot body)) :=
        .optionalBody _ (c.stmtSlot_fits body)
      have hhead := Own.of_inline (d := d) (c.catchHead_inline bound)
      split_ifs
      · obtain ⟨u, hu⟩ := hbody.exists_own_braced d
        exact ⟨_, hhead.append hu⟩
      · obtain ⟨u, hu⟩ := hbody.exists_own_braced (d + 1)
        have hif := (((Own.text "if ").append (.of_inline (.asCondition guard
          (c.exprSlot_fits guard)))).append hu).append .lineBreak
        exact ⟨_, hhead.append ((((Own.text _).append .lineBreak).append hif.indented).append
          (.text _))⟩
    | _ => exact ⟨[], .of_fault rfl _⟩
  | _ => exact ⟨[], .of_fault rfl _⟩

/-- A guard writes what a condition in its place writes. -/
theorem clause_guarded (handler bound : Value) {guard : Value} (hg : guard.isNull = false) (d : Nat) :
    Restates d (c.catchClause (.clause (.catch handler bound guard)))
      (c.catchClause (.clause (.catch
        (blockOf [.stmt (.condition guard handler (blockOf []))]) bound .null))) := by
  have hguarded : c.catchClause (.clause (.catch handler bound guard)) = c.catchHead bound ++
      (text " \x7b" ++ lineBreak ++ indented (text "if " ++ guard.asCondition (c.exprSlot guard) ++
        braced (handler.optionally (c.stmtSlot handler)) ++ lineBreak) ++ text "\x7d") := by
    rw [catchClause, hg]
    rfl
  have hunguarded : c.catchClause (.clause (.catch
      (blockOf [.stmt (.condition guard handler (blockOf []))]) bound .null)) = c.catchHead bound ++
      braced (delayed fun _ => (delayed fun _ => step .separator ++ text "if " ++
        guard.asCondition (c.exprSlot guard) ++ braced (handler.optionally (c.stmtSlot handler)) ++
        ∅) ++ ∅) := by
    simp only [catchClause, blockOf, stmtSlot, stmt, stmtItems, stmtSlots]
    rfl
  rw [hguarded, hunguarded]
  have hbody : Statements (handler.optionally (c.stmtSlot handler)) :=
    .optionalBody _ (c.stmtSlot_fits handler)
  obtain ⟨u, hu⟩ := hbody.exists_own_braced (d + 1)
  have hhead := Own.of_inline (d := d) (c.catchHead_inline bound)
  have hcondition := Own.of_inline (d := d + 1) (.asCondition guard (c.exprSlot_fits guard))
  have hif := (((Own.text "if ").append hcondition).append hu).append .lineBreak
  have hstatement : Placed (d + 1) (delayed fun _ => (delayed fun _ => step .separator ++
      text "if " ++ guard.asCondition (c.exprSlot guard) ++
      braced (handler.optionally (c.stmtSlot handler)) ++ ∅) ++ ∅) _ :=
    (Placed.closed ((((Started.first.append (.text "if ")).append hcondition).append hu).append
      .empty)).append .empty
  refine ⟨fun hf => ?_, _, hhead.append ((((Own.text _).append .lineBreak).append hif.indented).append
    (.text _)), ?_⟩
  · simpa [braced] using hf
  · have := hhead.append (.braced hstatement)
    simpa [braces, closed] using this

/-- What stands before the clauses of a `try` leaves nothing due. -/
theorem try_ground (body : Value)
    (hf : (step .separator ++ text "try" ++ braced (body.optionally (c.stmtSlot body))).fault = none)
    (l : Layout) (hl : At d l) : Ground d ((step .separator ++ text "try" ++
      braced (body.optionally (c.stmtSlot body))).after l) := by
  rw [after_append rfl]
  exact (Fits.optionalBody body (c.stmtSlot_fits body)).ground_braced (by simpa [braced] using hf)
    hl.separator.toAt

theorem braced_own (body : Value) : Fits .own (braced (body.optionally (c.stmtSlot body))) :=
  .braced (.optionalBody body (c.stmtSlot_fits body))

/-- What a `try` writes of its fault block. -/
def faultClause (fault : Value) : Script :=
  fault.unlessEmpty (lineBreak ++ text "catch (e)" ++ braced (c.stmtSlot fault ++ rethrow))

/-- What a `try` writes of the block that comes last. -/
def finallyClause (last : Value) : Script :=
  last.unlessEmpty (lineBreak ++ text "finally" ++ braced (c.stmtSlot last))

theorem faultClause_fits (fault : Value) : Fits .own (c.faultClause fault) :=
  .unlessEmpty _ (.ownAppend (.inline (.append .lineBreak (.text _)))
    (.braced (.follow (c.stmtSlot_fits fault) rethrow_statements)))

theorem finallyClause_fits (last : Value) : Fits .own (c.finallyClause last) :=
  .unlessEmpty _ (.ownAppend (.inline (.append .lineBreak (.text _)))
    (.braced (c.stmtSlot_fits last)))

theorem catchClauses_own (vs : List Value) : Fits .own (concat (vs.map c.catchClause)) := by
  refine .ownConcat fun s hs => ?_
  obtain ⟨v, -, rfl⟩ := List.mem_map.1 hs
  exact c.catchClause_fits v

theorem try_guarded {body handler bound guard fault last : Value} (before after : List Value)
    (hg : guard.isNull = false) :
    Retells d
      (c.stmt (.try body (.list (before ++ .clause (.catch handler bound guard) :: after)) fault last))
      (c.stmt (.try body (.list (before ++ .clause (.catch
        (blockOf [.stmt (.condition guard handler (blockOf []))]) bound .null) :: after))
        fault last)) := by
  have hclause := c.clause_guarded handler bound hg d
  have hclauses := Restates.concat_item (c.exists_own_clause d) hclause before after
  rw [stmt, stmt, catchItems, catchItems, catchClauses_eq, catchClauses_eq]
  exact (((Retells.of_restates (c.try_ground body) hclauses (c.catchClauses_own _)
    (c.catchClauses_own _)).before (c.faultClause_fits fault)).before
    (c.finallyClause_fits last)).before (.terminate _)

/-! ### Fault blocks -/

theorem caught_puts {thrown : Value} (h : c.program.RefersToCaught thrown) :
    Puts (c.exprSlot thrown) "e".toList := by
  have hreferenced : Identifier.referenced "e" = "e" := by decide
  rcases h with rfl | ⟨_, rfl, i, rfl, hname⟩
  · rw [exprSlot, expr]
    exact .delayed (.text "e")
  · rw [exprSlot, expr, ← hreferenced]
    exact .delayed (.variableUse _ hname)

theorem catchHead_retells {bound : Value} (h : c.program.BindsCaught bound) :
    Retells d (lineBreak ++ text "catch (e)") (c.catchHead bound) := by
  have hbound : Puts (if bound.isNull then text "e" else c.program.variableDeclaration bound)
      "e".toList := by
    rcases h with rfl | ⟨i, rfl, hname⟩
    · exact .text "e"
    · have hdeclared : Identifier.declared "e" = "e" := by decide
      rw [if_neg (by simp [Value.isNull]), Program.variableDeclaration, c.program.named?_variable,
        hname, ← hdeclared]
      exact .token rfl fun _ => rfl
  exact .after (Fits.lineBreak) (.of_puts (.text _) (((Puts.text "catch (").append hbound).append
    (.text ")")) (by decide))

theorem rethrow_retells {thrown : Value} (h : c.program.RefersToCaught thrown) :
    Retells d rethrow (c.stmtSlot (.stmt (.throw thrown))) := by
  have hnull : thrown.isNull = false := by
    rcases h with rfl | ⟨_, rfl, -⟩ <;> rfl
  rw [stmtSlot, stmt, hnull]
  have hsimple : Retells d rethrow (simple (text "throw " ++ c.exprSlot thrown)) :=
    .simple (.after (Fits.text _) (.of_puts (.text "e") (c.caught_puts h) rfl))
  exact hsimple.congr rfl rfl rfl rfl

theorem try_fault {body bound thrown last : Value} {clauses statements : List Value}
    (hs : statements ≠ []) (hb : c.program.BindsCaught bound)
    (ht : c.program.RefersToCaught thrown) :
    Retells d (c.stmt (.try body (.list clauses) (blockOf statements) last))
      (c.stmt (.try body (.list (clauses ++ [.clause (.catch
        (blockOf (statements ++ [.stmt (.throw thrown)])) bound .null)])) (blockOf []) last)) := by
  have hfault : Retells (d + 1) (c.stmtSlot (blockOf statements) ++ rethrow)
      (c.stmtSlot (blockOf (statements ++ [.stmt (.throw thrown)]))) := by
    have hsnoc : Retells (d + 1) (concat (statements.map c.stmtSlot) ++ rethrow)
        (concat (statements.map c.stmtSlot ++ [c.stmtSlot (.stmt (.throw thrown))])) := by
      refine .concat_snoc (r := .statements) (fun s hs => ?_) (c.rethrow_retells ht)
      obtain ⟨v, -, rfl⟩ := List.mem_map.1 hs
      exact c.stmtSlot_fits v
    rw [blockOf, blockOf, stmtSlot, stmtSlot, stmt, stmt, stmtItems, stmtItems, stmtSlots_eq,
      stmtSlots_eq, List.map_append, List.map_cons, List.map_nil]
    exact hsnoc.congr rfl rfl rfl rfl
  have hclause : Retells d (c.faultClause (blockOf statements))
      (c.catchClause (.clause (.catch
        (blockOf (statements ++ [.stmt (.throw thrown)])) bound .null))) := by
    have hset : (Value.list statements).isSet = true := by simpa [Value.isSet] using hs
    have hshown (r : Script) : (blockOf statements).unlessEmpty r = r := by
      rw [blockOf, Value.unlessEmpty, hset]
      rfl
    rw [catchClause, faultClause, hshown]
    exact (c.catchHead_retells hb).append (.braced hfault)
  have hclauses : Retells d
      (concat (clauses.map c.catchClause) ++ c.faultClause (blockOf statements))
      (concat (clauses.map c.catchClause ++ [c.catchClause (.clause (.catch
        (blockOf (statements ++ [.stmt (.throw thrown)])) bound .null))])) := by
    refine .concat_snoc (r := .own) (fun s hs => ?_) hclause
    obtain ⟨v, -, rfl⟩ := List.mem_map.1 hs
    exact c.catchClause_fits v
  rw [stmt, stmt, catchItems, catchItems, catchClauses_eq, catchClauses_eq, List.map_append,
    List.map_cons, List.map_nil]
  -- The fault block is another part of the first statement, and a clause of the second.
  have hopen : Fits .started
      (step .separator ++ text "try" ++ braced (body.optionally (c.stmtSlot body))) :=
    .own (.own .first (.inline (.text _))) (c.braced_own body)
  have htry := Retells.after hopen hclauses
  refine ((htry.congr (steps_append_assoc ..) ?_ ?_ ?_).before
    (c.finallyClause_fits last)).before (.terminate _)
  · simp [Option.or_assoc]
  · simp [blockOf, Value.unlessEmpty, Value.isSet, steps_append]
  · simp [blockOf, Value.unlessEmpty, Value.isSet]

/-- The step: one statement is put in other words. -/
theorem lowers_retells {s t : Stmt} (h : s.Lowers c.program t) :
    Retells d (c.stmt s) (c.stmt t) := by
  cases h with
  | assigned hr hd => exact c.using_assigned hr hd
  | resource hr _ hd => exact c.using_other hr hd
  | guarded before after hg _ => exact c.try_guarded before after hg
  | fault hs hb ht => exact c.try_fault hs hb ht

end Context

/-! ### Around a replaced statement -/

namespace Value.Lowered

variable {p : Program} {v w : Value}

theorem isNull (h : Lowered p v w) : v.isNull = false ∧ w.isNull = false := by
  cases h <;> exact ⟨rfl, rfl⟩

theorem optionally (h : Lowered p v w) (a b : Script) :
    v.optionally a = a ∧ w.optionally b = b := by
  obtain ⟨hv, hw⟩ := h.isNull
  rw [Value.optionally, Value.optionally, hv, hw]
  exact ⟨rfl, rfl⟩

/-- A block in which a statement is replaced was not empty and is not. Other statements are not
written where a block is left out when it is empty. -/
theorem unlessEmpty {d : Nat} {a b : Script} (h : Lowered p v w) (hab : Retells d a b) :
    Retells d (v.unlessEmpty a) (w.unlessEmpty b) := by
  have hset (before after : List Value) (v : Value) (s : Script) :
      (blockOf (before ++ v :: after)).unlessEmpty s = s := by
    simp [blockOf, Value.unlessEmpty, Value.isSet]
  cases h with
  | item before after _ | block before after _ =>
    rw [hset, hset]
    exact hab
  | _ => exact .of_fault rfl

end Value.Lowered

namespace Context

variable (c : Context) {d : Nat} {v w : Value}

theorem block_retells (before after : List Value) (h : Retells d (c.stmtSlot v) (c.stmtSlot w)) :
    Retells d (c.stmtSlot (blockOf (before ++ v :: after)))
      (c.stmtSlot (blockOf (before ++ w :: after))) := by
  rw [blockOf, blockOf, stmtSlot, stmtSlot, stmt, stmt, stmtItems, stmtItems, stmtSlots_eq,
    stmtSlots_eq]
  exact .delayed (.concat_item c.stmtSlot_fits h before after)

theorem braced_retells (h : v.Lowered c.program w)
    (hbody : Retells (d + 1) (c.stmtSlot v) (c.stmtSlot w)) :
    Retells d (braced (v.optionally (c.stmtSlot v))) (braced (w.optionally (c.stmtSlot w))) := by
  obtain ⟨hv, hw⟩ := h.optionally (c.stmtSlot v) (c.stmtSlot w)
  rw [hv, hw]
  exact .braced hbody

theorem catchItems_retells (before after : List Value)
    (h : Retells d (c.catchClause v) (c.catchClause w)) :
    Retells d (concat (c.catchItems (.list (before ++ v :: after))))
      (concat (c.catchItems (.list (before ++ w :: after)))) := by
  rw [catchItems, catchItems, catchClauses_eq, catchClauses_eq]
  exact .concat_item c.catchClause_fits h before after

theorem catchClause_retells (bound test : Value)
    (h : Retells d (braced (v.optionally (c.stmtSlot v))) (braced (w.optionally (c.stmtSlot w))))
    (h' : Retells (d + 1) (braced (v.optionally (c.stmtSlot v)))
      (braced (w.optionally (c.stmtSlot w)))) :
    Retells d (c.catchClause (.clause (.catch v bound test)))
      (c.catchClause (.clause (.catch w bound test))) := by
  rw [catchClause, catchClause]
  refine .after (c.catchHead_inline bound) ?_
  split_ifs
  · exact h
  · have hif : Inline (text "if " ++ test.asCondition (c.exprSlot test)) :=
      .append (.text _) (.asCondition _ (c.exprSlot_fits test))
    exact (Retells.after (.append (.text _) .lineBreak)
      ((Retells.after hif h').before .lineBreak).indented).before (.text _)

theorem caseBody_retells (h : v.Lowered c.program w)
    (hbody : Retells (d + 1) (c.stmtSlot v) (c.stmtSlot w)) :
    Retells d (indented (Script.body (v.optionally (c.stmtSlot v))))
      (indented (Script.body (w.optionally (c.stmtSlot w)))) := by
  obtain ⟨hv, hw⟩ := h.optionally (c.stmtSlot v) (c.stmtSlot w)
  rw [hv, hw]
  exact hbody.body.indented

theorem switch_retells (subject : Value) (before after : List Value)
    (h : Retells d (c.switchCase subject v) (c.switchCase subject w)) :
    Retells d (c.stmt (.switch subject (.list (before ++ v :: after))))
      (c.stmt (.switch subject (.list (before ++ w :: after)))) := by
  have hopen : Fits .started (step .separator ++ text "switch " ++
      subject.asCondition (c.exprSlot subject) ++ text " \x7b" ++ lineBreak) :=
    .own (.own (.own (.own .first (.inline (.text _)))
      (.inline (.asCondition _ (c.exprSlot_fits subject)))) (.inline (.text _))) (.inline .lineBreak)
  rw [stmt, stmt, switchItems, switchItems, switchCases_eq, switchCases_eq]
  exact ((Retells.after hopen (.concat_item (c.switchCase_fits subject) h before after)).before
    (.text _)).before (.terminate _)

theorem label_statements (label : Value) :
    Statements (step .separator ++ given label.asName fun name => step (.label name)) := by
  cases label.asName with
  | ok name => exact .label name
  | error f => exact .started (.own .first (.inline (.fail f)))

/-- What a condition writes if it does not hold. -/
def elseClause (no : Value) : Script :=
  no.optionally (no.unlessEmpty (lineBreak ++ text "else" ++ braced (c.stmtSlot no)))

theorem elseClause_fits (no : Value) : Fits .own (c.elseClause no) :=
  .ownOptionally _ (.unlessEmpty _ (.ownAppend (.inline (.append .lineBreak (.text _)))
    (.braced (c.stmtSlot_fits no))))

theorem elseClause_retells (h : v.Lowered c.program w)
    (hbody : Retells (d + 1) (c.stmtSlot v) (c.stmtSlot w)) :
    Retells d (c.elseClause v) (c.elseClause w) := by
  have helse : Retells d (lineBreak ++ text "else" ++ braced (c.stmtSlot v))
      (lineBreak ++ text "else" ++ braced (c.stmtSlot w)) :=
    .after (.append .lineBreak (.text _)) (.braced hbody)
  obtain ⟨hv, hw⟩ := h.optionally (v.unlessEmpty _) (w.unlessEmpty _)
  rw [elseClause, elseClause, hv, hw]
  exact h.unlessEmpty helse

/-- The parts of a condition can be replaced by parts that read alike. -/
theorem condition_retells (test : Value) {yes yes' no no' : Value}
    (hyes : Retells d (braced (yes.optionally (c.stmtSlot yes)))
      (braced (yes'.optionally (c.stmtSlot yes'))))
    (hno : Retells d (c.elseClause no) (c.elseClause no')) :
    Retells d (c.stmt (.condition test yes no)) (c.stmt (.condition test yes' no')) := by
  have hopen : Fits .started (step .separator ++ text "if " ++
      test.asCondition (c.exprSlot test)) :=
    .own (.own .first (.inline (.text _))) (.inline (.asCondition _ (c.exprSlot_fits test)))
  rw [stmt, stmt]
  exact (Retells.after hopen hyes).append hno

/-- The parts of a `try` can be replaced by parts that read alike. -/
theorem try_retells {body body' catches catches' fault fault' last last' : Value}
    (hbody : Retells d (braced (body.optionally (c.stmtSlot body)))
      (braced (body'.optionally (c.stmtSlot body'))))
    (hcatches : Retells d (concat (c.catchItems catches)) (concat (c.catchItems catches')))
    (hfault : Retells d (c.faultClause fault) (c.faultClause fault'))
    (hlast : Retells d (c.finallyClause last) (c.finallyClause last')) :
    Retells d (c.stmt (.try body catches fault last))
      (c.stmt (.try body' catches' fault' last')) := by
  have hopen : Fits .started (step .separator ++ text "try") := .own .first (.inline (.text _))
  rw [stmt, stmt]
  exact ((((Retells.after hopen hbody).append hcatches).append hfault).append hlast).before
    (.terminate _)

theorem stmtSlot_retells {s t : Stmt} (h : Retells d (c.stmt s) (c.stmt t)) :
    Retells d (c.stmtSlot (.stmt s)) (c.stmtSlot (.stmt t)) := by
  rw [stmtSlot, stmtSlot]
  exact .delayed h

/-- What stands around a replaced statement goes on as before. -/
theorem lowered_retells (h : v.Lowered c.program w) (d : Nat) :
    Retells d (c.stmtSlot v) (c.stmtSlot w) := by
  induction h generalizing d with
  | item before after h =>
    exact c.block_retells before after (c.stmtSlot_retells (c.lowers_retells h))
  | block before after _ ih => exact c.block_retells before after (ih d)
  | @labeled _ label v w h ih =>
    obtain ⟨hv, hw⟩ := h.optionally (c.stmtSlot v) (c.stmtSlot w)
    refine c.stmtSlot_retells ?_
    rw [stmt, stmt, hv, hw]
    exact .after (label_statements label) (ih d)
  | @yes test _ _ no h ih =>
    exact c.stmtSlot_retells (c.condition_retells test (c.braced_retells h (ih _))
      (.refl (c.elseClause_fits no)))
  | @no test yes _ _ h ih =>
    exact c.stmtSlot_retells (c.condition_retells test (.refl (c.braced_own yes))
      (c.elseClause_retells h (ih _)))
  | @«for» start test increment _ _ h ih =>
    refine c.stmtSlot_retells ?_
    rw [stmt, stmt]
    exact .after (.own (.header (.own .first (.inline (.text _)))
      (.optionalBody _ (c.stmtSlot_fits start)) (.optionally _ (c.exprSlot_fits test))
      (.optionalBody _ (c.stmtSlot_fits increment))) (.inline (.text _)))
      (c.braced_retells h (ih _))
  | @forEach bound source _ _ h ih | @fixed bound source _ _ h ih =>
    refine c.stmtSlot_retells ?_
    rw [stmt, stmt]
    exact .after (.own (.own (.own (.own (.own .first (.inline (.text _)))
      (.inline (c.program.variableUse_inline bound))) (.inline (.text _)))
      (.inline (c.exprSlot_fits source))) (.inline (.text _))) (c.braced_retells h (ih _))
  | @«using» resource _ _ h ih =>
    refine c.stmtSlot_retells ?_
    rw [stmt, stmt]
    exact .before (.before (.before (.before (.before (.before (.after
      (.own (.next (acquire_statements _ (c.exprSlot_fits resource))) (.inline (.text _)))
      (c.braced_retells h (ih _))) .lineBreak) (.text _)) .lineBreak)
      (.indented (c.release_inline _ (c.exprSlot_fits resource)))) (.text _)) (.terminate _)
  | @«while» test _ _ h ih | @lock test _ _ h ih =>
    refine c.stmtSlot_retells ?_
    rw [stmt, stmt]
    exact .after (.own (.own .first (.inline (.text _)))
      (.inline (.asCondition _ (c.exprSlot_fits test)))) (c.braced_retells h (ih _))
  | @«do» test _ _ h ih =>
    refine c.stmtSlot_retells ?_
    rw [stmt, stmt]
    exact .simple (.before (.before (.after (.text _) (c.braced_retells h (ih _)))
      (.text _)) (.asCondition _ (c.exprSlot_fits test)))
  | @«try» _ _ catches fault last h ih =>
    exact c.stmtSlot_retells (c.try_retells (c.braced_retells h (ih _))
      (.refl (.ownConcat (c.catchItems_fits catches))) (.refl (c.faultClause_fits fault))
      (.refl (c.finallyClause_fits last)))
  | @«catch» body bound test fault last _ _ before after h ih =>
    exact c.stmtSlot_retells (c.try_retells (.refl (c.braced_own body))
      (c.catchItems_retells before after (c.catchClause_retells bound test
        (c.braced_retells h (ih _)) (c.braced_retells h (ih _))))
      (.refl (c.faultClause_fits fault)) (.refl (c.finallyClause_fits last)))
  | @fault body catches _ _ last h ih =>
    exact c.stmtSlot_retells (c.try_retells (.refl (c.braced_own body))
      (.refl (.ownConcat (c.catchItems_fits catches)))
      (h.unlessEmpty (.after (.append .lineBreak (.text _))
        (.braced ((ih _).before rethrow_statements))))
      (.refl (c.finallyClause_fits last)))
  | @last body catches fault _ _ h ih =>
    exact c.stmtSlot_retells (c.try_retells (.refl (c.braced_own body))
      (.refl (.ownConcat (c.catchItems_fits catches))) (.refl (c.faultClause_fits fault))
      (h.unlessEmpty (.after (.append .lineBreak (.text _)) (.braced (ih _)))))
  | @case subject test _ _ before after h ih =>
    refine c.stmtSlot_retells (c.switch_retells subject before after ?_)
    rw [switchCase, switchCase]
    exact .after (c.caseLabels_fits subject (c.exprSlot_fits test) test) (c.caseBody_retells h (ih _))
  | @default subject _ _ before after h ih =>
    refine c.stmtSlot_retells (c.switch_retells subject before after ?_)
    rw [switchCase, switchCase]
    exact .after (.append (.text _) .lineBreak) (c.caseBody_retells h (ih _))

end Context

/-! ### Variables -/

theorem Value.locals_blockOf (vs : List Value) : (blockOf vs).locals = vs.flatMap locals := by
  rw [blockOf, locals, Stmt.locals, locals, localsOfAll_eq]

theorem Value.locals_callOf (method : MethodId) (target : Value) :
    (callOf method target).locals = target.locals := by
  rw [callOf, locals_blockOf]
  simp [locals, Stmt.locals, Expr.locals, Expr.opensScope, localsOfAll, Id.entity]

theorem Program.RefersToCaught.locals {p : Program} {thrown : Value} (h : p.RefersToCaught thrown) :
    thrown.locals = [] := by
  rcases h with rfl | ⟨_, rfl, -⟩ <;> rfl

/-- The same variables are declared, in the same order. -/
theorem Stmt.Lowers.locals {p : Program} {s t : Stmt} (h : s.Lowers p t) : t.locals = s.locals := by
  cases h with
  | assigned _ _ =>
    simp [Stmt.locals, Value.locals, Value.localsOfAll, Value.locals_blockOf, Value.locals_callOf,
      Expr.opensScope, Expr.locals]
  | resource _ hr _ =>
    simp [Stmt.locals, Value.locals, Value.localsOfAll, Value.locals_blockOf, Value.locals_callOf, hr]
  | guarded before after _ hg =>
    simp [Stmt.locals, Value.locals, Value.localsOfAll_eq, Value.locals_blockOf, Clause.locals, hg,
      Value.null]
  | fault _ _ ht =>
    simp [Stmt.locals, Value.locals, Value.localsOfAll_eq, Value.locals_blockOf, Clause.locals,
      ht.locals, Value.null]

theorem Value.Lowered.locals {p : Program} {v w : Value} (h : Lowered p v w) :
    w.locals = v.locals := by
  induction h with
  | item before after h =>
    simp [Value.locals_blockOf, Value.locals, h.locals]
  | block before after _ ih => simp [Value.locals_blockOf, ih]
  | «catch» before after _ ih | case before after _ ih | default before after _ ih =>
    simp [Value.locals, Value.localsOfAll_eq, Stmt.locals, Clause.locals, ih]
  | _ => simp [Value.locals, Stmt.locals, *]

/-! ### Texts -/

namespace Context

open Relation (ReflTransGen)

variable (c : Context) {d : Nat} {v w : Value}

/-- A statement on its own. -/
theorem renderText_lowered (h : v.Lowered c.program w) {t : String} (ht : c.renderText v = .ok t) :
    c.renderText w = .ok t := by
  have hbody := c.lowered_retells h 0
  have hstart : At 0 {} := ⟨rfl, rfl⟩
  obtain ⟨hf, -, -⟩ := plainText_eq_ok.1 ht
  cases h with
  | item before after _ | block before after _ =>
    obtain ⟨m, -, htwins⟩ := hbody.body hf {} hstart
    exact htwins.plainText ht
  | _ =>
    have hopen : Stays (step .openBody) := .step fun _ _ hl => ⟨hl.depth, hl.forHeader⟩
    have hparts := fault_append_eq_none.1 hf
    obtain ⟨m, -, htwins⟩ := (Retells.of_stays hopen).append hbody hparts.1 {} hstart
    exact (htwins.before (s := step .finish) rfl).plainText ht

theorem declarations_lowered (h : v.Lowered c.program w) : c.declarations w = c.declarations v := by
  have hinside : c.program.localsInside w = c.program.localsInside v := by
    have hlocals := h.locals
    cases h <;> exact congrArg Except.ok hlocals
  rw [declarations, declarations, Program.hoisted, Program.hoisted, hinside]

/-- The body of a function, with the variables that it declares. -/
theorem functionBody_retells (h : v.Lowered c.program w) :
    Retells d (indented (c.functionBody v (v.optionally (c.stmtSlot v))))
      (indented (c.functionBody w (w.optionally (c.stmtSlot w)))) := by
  intro hf l hl
  have hstays := (c.functionBody_inline v (.optionalBody v (c.stmtSlot_fits v))).stays hf d l hl
  obtain ⟨hv, hw⟩ := h.optionally (c.stmtSlot v) (c.stmtSlot w)
  rw [hv] at hf hstays
  rw [hv, hw]
  suffices htwins : ∃ m, Twins l m (indented (c.functionBody v (c.stmtSlot v)))
      (indented (c.functionBody w (c.stmtSlot w))) by
    obtain ⟨m, ts, us, hts, hus, halike⟩ := htwins
    exact ⟨m, hts.after ▸ hstays, ts, us, hts, hus, halike⟩
  unfold functionBody at hf ⊢
  split_ifs at hf ⊢
  swap
  · cases hf
  rw [fault_indented] at hf
  simp only [fault_append_eq_none] at hf
  obtain ⟨⟨⟨-, hfd⟩, hfs⟩, -⟩ := hf
  have henter : At (d + 1) (l.move .indent).enter := ⟨hl.indent.depth, rfl⟩
  have hdeclared := Stays.of_neutral (c.declarations_declares v).neutral hfd _ _ henter
  obtain ⟨m, -, hbody⟩ := (c.lowered_retells h (d + 1)).body hfs _ hdeclared
  have hopen : Twins (l.move .indent) _ (step .enter ++ c.declarations v)
      (step .enter ++ c.declarations v) := (Twins.refl (s := step .enter) rfl _).before hfd
  rw [c.declarations_lowered h]
  exact ⟨_, ((hopen.append hbody).before rfl).indented⟩

theorem functionBody_lowered (h : ReflTransGen (Value.Lowered c.program) v w) :
    Retells d (indented (c.functionBody v (v.optionally (c.stmtSlot v))))
      (indented (c.functionBody w (w.optionally (c.stmtSlot w)))) := by
  induction h with
  | refl => exact .refl (c.functionBody_inline v (.optionalBody v (c.stmtSlot_fits v)))
  | tail _ hstep ih => exact ih.trans (c.functionBody_retells hstep)

theorem isNull_lowered {p : Program} (h : ReflTransGen (Value.Lowered p) v w) :
    w.isNull = v.isNull := by
  induction h with
  | refl => rfl
  | tail _ hstep ih => rw [hstep.isNull.2, ← ih, hstep.isNull.1]

/-- What a name leads to is not part of what is read. -/
theorem declaration_retells (name : Value) (target target' : Option Target) :
    Retells d (declaration name target) (declaration name target') := by
  unfold declaration given
  cases name.asName with
  | ok name =>
    refine fun _ l hl => ⟨l, hl, _, _, ⟨rfl, rfl, rfl⟩, ⟨rfl, rfl, rfl⟩, ?_⟩
    exact ReadAlike.declaration ..
  | error f => exact .of_fault rfl

theorem methodDetails_retells {i j : Nat} {details : MethodDetails}
    (hi : (c.program.method ⟨i⟩).declared = some { details with body := v })
    (hj : c.program.method ⟨j⟩ =
      { c.program.method ⟨i⟩ with declared := some { details with body := w } })
    (h : ReflTransGen (Value.Lowered c.program) v w) :
    Retells d (c.methodDetails ⟨i⟩ { details with body := v })
      (c.methodDetails ⟨j⟩ { details with body := w }) := by
  have hhead : c.methodHead ⟨j⟩ { details with body := w } =
      c.methodHead ⟨i⟩ { details with body := v } := by
    simp [methodHead, Program.methodModifiers, Value.id?, Id.entity, hi, hj, isNull_lowered h]
  have hparameters := c.program.parameterList_outline (c.program.method ⟨i⟩).parameters
  rw [methodDetails, methodDetails, hhead, hj]
  exact .before (.append (.before (.before (.append (.before (.append
    (.of_stays (.of_neutral (c.methodHead_outline _ _).neutral)) (declaration_retells _ _ _))
    (.text _)) (.of_stays (.of_neutral hparameters.neutral))) (.text _)) .lineBreak)
    (c.functionBody_lowered h)) (.text _)

/-- A method whose body is put in other words. -/
theorem methodDeclaration_retells {i j : Nat} {details : MethodDetails}
    (hi : (c.program.method ⟨i⟩).declared = some { details with body := v })
    (hj : c.program.method ⟨j⟩ =
      { c.program.method ⟨i⟩ with declared := some { details with body := w } })
    (h : ReflTransGen (Value.Lowered c.program) v w) :
    Retells d (c.methodDeclaration (.entity ⟨.method, i⟩))
      (c.methodDeclaration (.entity ⟨.method, j⟩)) := by
  have hdeclared (k : Nat) (details : MethodDetails)
      (hk : (c.program.method ⟨k⟩).declared = some details) :
      c.methodDeclaration (.entity ⟨.method, k⟩) = given (c.program.method ⟨k⟩).name.asName
        fun name => step (.log (.declaration "method" name)) ++ c.methodDetails ⟨k⟩ details := by
    show given _ (fun name => _ ++ (c.program.method ⟨k⟩).declared.elim _ _) = _
    rw [hk]
    rfl
  rw [hdeclared i _ hi, hdeclared j { details with body := w } (by rw [hj]), hj]
  cases (c.program.method ⟨i⟩).name.asName with
  | ok name =>
    exact .append (.of_stays (.of_neutral (.log _))) (c.methodDetails_retells hi hj h)
  | error f => exact .of_fault rfl

/-- Whatever statements are put in other words, and however often: a statement keeps its text, and so
does a method, the declarations of its variables included. -/
theorem lowering_keeps_text (h : ReflTransGen (Value.Lowered c.program) v w) :
    (∀ t, c.renderText v = .ok t → c.renderText w = .ok t) ∧
    ∀ (i j : Nat) (details : MethodDetails),
      (c.program.method ⟨i⟩).declared = some { details with body := v } →
      c.program.method ⟨j⟩ =
        { c.program.method ⟨i⟩ with declared := some { details with body := w } } →
      ∀ t, c.renderText (.entity ⟨.method, i⟩) = .ok t →
        c.renderText (.entity ⟨.method, j⟩) = .ok t := by
  refine ⟨fun t ht => ?_, fun i j details hi hj t ht => ?_⟩
  · induction h with
    | refl => exact ht
    | tail _ hstep ih => exact c.renderText_lowered hstep ih
  · have hrender (k : Nat) (hk : (c.program.method ⟨k⟩).declared.isSome = true) :
        c.render (.entity ⟨.method, k⟩) = c.methodDeclaration (.entity ⟨.method, k⟩) := by
      simp [render, entity, Program.isDeclared, hk]
    unfold renderText at ht ⊢
    rw [hrender i (by rw [hi]; rfl)] at ht
    rw [hrender j (by rw [hj]; rfl)]
    obtain ⟨hf, -, -⟩ := plainText_eq_ok.1 ht
    obtain ⟨m, -, htwins⟩ := c.methodDeclaration_retells hi hj h hf {} (d := 0) ⟨rfl, rfl⟩
    exact htwins.plainText ht

/-- A method with a guarded resource, a guard and a fault block, one in another. -/
theorem lowering_keeps_text_disposed :
    let file : Value := .entity ⟨.variable, 0⟩
    let resource : Value := .expr (.assign (.expr (.declare file)) (.expr .this))
    let clause (handler guard : Value) : Value := .clause (.catch handler .null guard)
    let body := blockOf [.stmt (.using resource (blockOf [.stmt (.try (blockOf [])
      (.list [clause (blockOf []) (.expr .this)]) (blockOf [.stmt .debugBreak]) (blockOf []))]))]
    let lowered := blockOf [blockOf [.stmt (.expression resource), .stmt (.try
      (blockOf [.stmt (.try (blockOf [])
        (.list [clause (blockOf [.stmt (.condition (.expr .this) (blockOf []) (blockOf []))]) .null,
          clause (blockOf [.stmt .debugBreak, .stmt (.throw (.expr (.snippet (.ofText "e"))))]) .null])
        (blockOf []) (blockOf []))])
      (.list []) (blockOf []) (callOf ⟨0⟩ (.expr (.variable file))))]]
    let details : MethodDetails :=
      ⟨.null, .null, .null, .null, .null, .null, .null, .null, body, .null, .null⟩
    let method : MethodSymbol :=
      { name := .ofText "M", parameters := .list [], declared := some details }
    let c : Context := { program := {
      locals := #[{ name := .ofText "f" }],
      methods := #[{ name := .ofText "Dispose", parameters := .list [] }, method,
        { method with declared := some { details with body := lowered } }] } }
    let text := "M = function() \x7b\n    var f;\n    f = this;\n    try \x7b\n" ++
      "        try \x7b\n        \x7d\n" ++
      "        catch (e) \x7b\n            if (this) \x7b\n            \x7d\n        \x7d\n" ++
      "        catch (e) \x7b\n            debugger;\n            throw e;\n        \x7d\n" ++
      "    \x7d\n    finally \x7b\n        f.Dispose();\n    \x7d\n\x7d"
    c.renderText (.entity ⟨.method, 1⟩) = .ok text ∧
      c.renderText (.entity ⟨.method, 2⟩) = .ok text := by
  intro file resource clause body lowered details method c text
  have hdispose : c.program.IsDispose ⟨0⟩ := ⟨rfl, rfl⟩
  -- The resource first, and then what stands in the `try` that it becomes.
  have hchain : Relation.ReflTransGen (Value.Lowered c.program) body lowered :=
    ((Relation.ReflTransGen.single (.item [] [] (.assigned rfl hdispose))).tail
      (.block [] [] (.block [_] [] (.try (.item [] [] (.guarded [] [] rfl rfl)))))).tail
      (.block [] [] (.block [_] [] (.try (.item [] [] (.fault (by simp) (.inl rfl) (.inl rfl))))))
  have htext : c.renderText (.entity ⟨.method, 1⟩) = .ok text := by decide +kernel
  exact ⟨htext, (c.lowering_keeps_text hchain).2 1 2 details rfl rfl text htext⟩

end Context

end Scribe
