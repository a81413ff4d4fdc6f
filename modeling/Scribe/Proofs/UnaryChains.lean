import Scribe.Proofs.Readability

/-!
# Operators on one operand, one on the other

An operator on a single operand stands right before or right after it, without parentheses. In a chain
of such operators the text tells in which order those before the variable were applied, and in which
order those after it, but not how the two are mixed. Besides, `--` before the variable is one decrement
or two negations.

That is all: chains have the same text just where `UnaryOperator.leading` and
`UnaryOperator.trailing` agree on them (`Context.same_chain_text_iff`).
-/

namespace Scribe

open Script

/-- The operators on a single operand. -/
inductive UnaryOperator
  | negate | not | complement | increment | decrement | thenIncrement | thenDecrement
deriving DecidableEq, Repr

namespace UnaryOperator

def word : UnaryOperator → String
  | negate => "negate"
  | not => "boolean_not"
  | complement => "bitwise_not"
  | increment => "pre_increment"
  | decrement => "pre_decrement"
  | thenIncrement => "post_increment"
  | thenDecrement => "post_decrement"

def symbol : UnaryOperator → List Char
  | negate => ['-']
  | not => ['!']
  | complement => ['~']
  | increment | thenIncrement => ['+', '+']
  | decrement | thenDecrement => ['-', '-']

/-- What an operator that stands before its operand is read as: a decrement is read as two
negations. -/
def leading : UnaryOperator → List UnaryOperator
  | decrement => [negate, negate]
  | thenIncrement | thenDecrement => []
  | o => [o]

/-- The same for one that stands after its operand. -/
def trailing : UnaryOperator → List UnaryOperator
  | thenIncrement => [thenIncrement]
  | thenDecrement => [thenDecrement]
  | _ => []

/-- The operators applied to an operand, the first one first. -/
def applied (operators : List UnaryOperator) (operand : Value) : Value :=
  operators.foldl (fun inner o => .expr (.unary (.ofText o.word) inner)) operand

/-- The characters of operators. -/
def isSign (c : Char) : Bool := c == '+' || c == '-' || c == '!' || c == '~'

theorem symbol_isSign (o : UnaryOperator) : ∀ c ∈ o.symbol, isSign c = true := by
  rw [← List.all_eq_true]
  cases o <;> rfl

/-- An operator that is not read behind its operand is written before it. -/
theorem stands_before {o : UnaryOperator} (h : o.trailing = []) :
    leadingSymbol? (.ofText o.word) = some (String.ofList o.symbol) ∧
      o.leading.reverse.flatMap symbol = o.symbol := by
  cases o <;> first | exact ⟨rfl, rfl⟩ | cases h

theorem stands_after {o : UnaryOperator} (h : o.trailing ≠ []) :
    leadingSymbol? (.ofText o.word) = none ∧
      trailingSymbol? (.ofText o.word) = some (String.ofList o.symbol) ∧
      o.leading = [] ∧ o.trailing.flatMap symbol = o.symbol := by
  cases o <;> first | exact ⟨rfl, rfl, rfl, rfl⟩ | exact absurd rfl h

/-- Symbols that can be told from the beginning of a text can be told in a row. -/
theorem flatMap_symbol_inj {known : UnaryOperator → Prop}
    (hknown : ∀ a b r s, known a → known b → a.symbol ++ r = b.symbol ++ s → a = b)
    {as bs : List UnaryOperator} (ha : ∀ a ∈ as, known a) (hb : ∀ b ∈ bs, known b)
    (h : as.flatMap symbol = bs.flatMap symbol) : as = bs := by
  induction as generalizing bs with
  | nil =>
    cases bs with
    | nil => rfl
    | cons b bs => cases b <;> cases h
  | cons a as ih =>
    cases bs with
    | nil => cases a <;> cases h
    | cons b bs =>
      rw [List.flatMap_cons, List.flatMap_cons] at h
      obtain rfl := hknown a b _ _ (ha a (by simp)) (hb b (by simp)) h
      have hrest := ih (fun o ho => ha o (by simp [ho])) (fun o ho => hb o (by simp [ho]))
        (List.append_cancel_left h)
      rw [hrest]

theorem leading_of_mem {os : List UnaryOperator} {o : UnaryOperator} (h : o ∈ os.flatMap leading) :
    o.leading = [o] := by
  obtain ⟨a, -, ha⟩ := List.mem_flatMap.1 h
  cases a <;> simp only [leading, List.mem_cons, List.not_mem_nil, or_false, or_self] at ha <;>
    rw [ha] <;> rfl

theorem trailing_of_mem {os : List UnaryOperator} {o : UnaryOperator}
    (h : o ∈ os.flatMap trailing) : o.trailing = [o] := by
  obtain ⟨a, -, ha⟩ := List.mem_flatMap.1 h
  cases a <;> simp only [trailing, List.mem_cons, List.not_mem_nil, or_false] at ha <;>
    rw [ha] <;> rfl

/-- The symbols before an operand tell what they are read as. -/
theorem leading_inj {as bs : List UnaryOperator}
    (h : (as.flatMap leading).reverse.flatMap symbol = (bs.flatMap leading).reverse.flatMap symbol) :
    as.flatMap leading = bs.flatMap leading := by
  have htold (a b : UnaryOperator) (r s : List Char) (ha : a.leading = [a]) (hb : b.leading = [b])
      (hab : a.symbol ++ r = b.symbol ++ s) : a = b := by
    cases a <;> cases b <;> simp_all [leading, symbol]
  have hmem {os : List UnaryOperator} : ∀ o ∈ (os.flatMap leading).reverse, o.leading = [o] :=
    fun o ho => leading_of_mem (List.mem_reverse.1 ho)
  exact List.reverse_injective (flatMap_symbol_inj htold hmem hmem h)

theorem trailing_inj {as bs : List UnaryOperator}
    (h : (as.flatMap trailing).flatMap symbol = (bs.flatMap trailing).flatMap symbol) :
    as.flatMap trailing = bs.flatMap trailing := by
  have htold (a b : UnaryOperator) (r s : List Char) (ha : a.trailing = [a])
      (hb : b.trailing = [b]) (hab : a.symbol ++ r = b.symbol ++ s) : a = b := by
    cases a <;> cases b <;> simp_all [trailing, symbol]
  exact flatMap_symbol_inj htold (fun _ => trailing_of_mem) (fun _ => trailing_of_mem) h

end UnaryOperator

open UnaryOperator (isSign applied leading trailing symbol)

namespace Identifier

/-- A name that has no characters of operators. Identifiers have none. -/
def Signless (name : String) : Prop := name ≠ "" ∧ ∀ c ∈ name.toList, isSign c = false

instance (name : String) : Decidable (Signless name) :=
  decidable_of_iff (name ≠ "" ∧ name.toList.all (fun c => !isSign c) = true)
    (by simp [Signless])

/-- Such a name has none either where it is escaped. -/
theorem Signless.referenced {name : String} (h : Signless name) : Signless (referenced name) := by
  unfold Identifier.referenced
  split
  · decide
  · split
    · refine ⟨by simp, fun c hc => ?_⟩
      simp only [String.toList_append, List.mem_append] at hc
      rcases hc with hc | hc
      · obtain rfl : c = '&' := by simpa using hc
        rfl
      · exact h.2 c hc
    · exact h

/-- What stands before a name without signs, and after it, can be told from the name. -/
theorem Signless.append_inj {name : String} (h : Signless name) {as bs cs ds : List UnaryOperator}
    (heq : as.flatMap symbol ++ name.toList ++ cs.flatMap symbol =
      bs.flatMap symbol ++ name.toList ++ ds.flatMap symbol) :
    as.flatMap symbol = bs.flatMap symbol ∧ cs.flatMap symbol = ds.flatMap symbol := by
  have hsigns (os : List UnaryOperator) : ∀ c ∈ os.flatMap symbol, isSign c = true := by
    intro c hc
    obtain ⟨o, -, ho⟩ := List.mem_flatMap.1 hc
    exact o.symbol_isSign c ho
  have hname (rest : List Char) : ∀ c ∈ (name.toList ++ rest).head?, isSign c = false := by
    intro c hc
    rw [List.head?_append_of_ne_nil _ (by simpa using h.1)] at hc
    exact h.2 c (List.mem_of_mem_head? hc)
  rw [List.append_assoc, List.append_assoc] at heq
  obtain ⟨hbefore, hrest⟩ := Text.span_append_inj (hsigns as) (hsigns bs) (hname _) (hname _) heq
  exact ⟨hbefore, List.append_cancel_left hrest⟩

end Identifier

namespace Context

variable (c : Context)

/-- One more operator on a chain stands on the outside of it. -/
theorem unary_spells (o : UnaryOperator) {v : Value} {cs : List Char}
    (h : Spells (c.exprSlot v) cs) :
    Spells (c.exprSlot (.expr (.unary (.ofText o.word) v)))
      (o.leading.reverse.flatMap symbol ++ cs ++ o.trailing.flatMap symbol) := by
  rw [exprSlot]
  refine Spells.delayed ?_
  rw [expr]
  by_cases ho : o.trailing = []
  · obtain ⟨hsymbol, hleading⟩ := UnaryOperator.stands_before ho
    have := h.leading hsymbol
    rw [String.toList_ofList] at this
    rwa [hleading, ho, List.flatMap_nil, List.append_nil]
  · obtain ⟨hnone, hsymbol, hleading, htrailing⟩ := UnaryOperator.stands_after ho
    have := h.trailing hnone hsymbol
    rw [String.toList_ofList] at this
    rwa [hleading, htrailing]

theorem applied_spells (os : List UnaryOperator) {v : Value} {cs : List Char}
    (h : Spells (c.exprSlot v) cs) :
    Spells (c.exprSlot (applied os v))
      ((os.flatMap leading).reverse.flatMap symbol ++ cs ++ (os.flatMap trailing).flatMap symbol) := by
  induction os generalizing v cs with
  | nil => simpa [applied] using h
  | cons o os ih =>
    have := ih (c.unary_spells o h)
    simpa [applied] using this

/-- The text of a chain over a variable. -/
theorem renderText_applied {i : Nat} {name : String}
    (hname : (c.program.localVariable ⟨i⟩).name = .ofText name) (os : List UnaryOperator) :
    c.renderText (applied os (.expr (.variable (.entity ⟨.variable, i⟩)))) =
      .ok (String.ofList ((os.flatMap leading).reverse.flatMap symbol ++
        (Identifier.referenced name).toList ++ (os.flatMap trailing).flatMap symbol)) := by
  have hexpr (os : List UnaryOperator) (e : Expr) : ∃ e', applied os (.expr e) = .expr e' := by
    induction os generalizing e with
    | nil => exact ⟨e, rfl⟩
    | cons o os ih => exact ih _
  have hvariable : Spells (c.exprSlot (.expr (.variable (.entity ⟨.variable, i⟩))))
      (Identifier.referenced name).toList := by
    rw [exprSlot]
    refine Spells.delayed ?_
    rw [expr]
    exact .variableUse _ hname
  have hchain := (c.applied_spells os hvariable).plainText
  obtain ⟨e, he⟩ := hexpr os (.variable (.entity ⟨.variable, i⟩))
  rw [he] at hchain ⊢
  exact hchain

/-- Chains of operators over a variable are all rendered. They have the same text just where their
operators before the variable are the same, with two negations for each decrement, and those after
it are the same. -/
theorem same_chain_text_iff {i : Nat} {name : String}
    (hname : (c.program.localVariable ⟨i⟩).name = .ofText name)
    (hsignless : Identifier.Signless name) (as bs : List UnaryOperator) :
    let v : Value := .expr (.variable (.entity ⟨.variable, i⟩))
    (∃ text, c.renderText (applied as v) = .ok text) ∧
      (∃ text, c.renderText (applied bs v) = .ok text) ∧
      (c.renderText (applied as v) = c.renderText (applied bs v) ↔
        as.flatMap leading = bs.flatMap leading ∧ as.flatMap trailing = bs.flatMap trailing) := by
  intro v
  have ha := c.renderText_applied hname as
  have hb := c.renderText_applied hname bs
  refine ⟨⟨_, ha⟩, ⟨_, hb⟩, ?_⟩
  rw [ha, hb]
  constructor
  · intro h
    obtain ⟨hl, ht⟩ := hsignless.referenced.append_inj
      (String.ofList_injective (Except.ok.inj h))
    exact ⟨UnaryOperator.leading_inj hl, UnaryOperator.trailing_inj ht⟩
  · rintro ⟨hl, ht⟩
    rw [hl, ht]

/-- `!-x++` is also the text of the chain with the increment in between, but not of `-!x++`. -/
theorem same_chain_text_iff_mixed :
    let c : Context := { program := { locals := #[{ name := .ofText "x" }] } }
    let v : Value := .expr (.variable (.entity ⟨.variable, 0⟩))
    c.renderText (applied [.negate, .not, .thenIncrement] v) =
        c.renderText (applied [.negate, .thenIncrement, .not] v) ∧
      c.renderText (applied [.negate, .not, .thenIncrement] v) ≠
        c.renderText (applied [.not, .negate, .thenIncrement] v) := by
  intro c v
  have hname : (c.program.localVariable ⟨0⟩).name = .ofText "x" := rfl
  have hsignless : Identifier.Signless "x" := by decide
  constructor
  · exact (c.same_chain_text_iff hname hsignless _ _).2.2.2 ⟨rfl, rfl⟩
  · intro h
    have := (c.same_chain_text_iff hname hsignless _ _).2.2.1 h
    exact absurd this (by decide)

/-- Two negations of `x` and one decrement have the same text. -/
theorem negations_read_as_decrement :
    let c : Context := { program := { locals := #[{ name := .ofText "x" }] } }
    let v : Value := .expr (.variable (.entity ⟨.variable, 0⟩))
    Identifier.Signless "x" ∧ [UnaryOperator.negate, .negate] ≠ [.decrement] ∧
      c.renderText (applied [.negate, .negate] v) = .ok "--x" ∧
      c.renderText (applied [.decrement] v) = .ok "--x" :=
  ⟨by decide, by decide, rfl, rfl⟩

end Context

end Scribe
