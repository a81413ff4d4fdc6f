import Scribe.Proofs.Placed
import Scribe.Proofs.Spelling

/-!
# Scripts that read alike

Statements can be put in other words without a difference in the text: the tokens may be cut at other
places, but they have the same characters in the same order. `Token.ReadAlike` is that relation of
tokens, on whatever margin they are written. `Script.Twins`: two scripts run from one layout to
another and what they write reads alike. `Script.Retells`: they do so wherever statements stand, if
the first one does not fault. As both end on the same layout, whatever stands around them reads alike
as well.
-/

namespace Scribe

/-! ### Tokens -/

namespace Token

/-- Lists of tokens that have the same text everywhere. -/
structure ReadAlike (ts us : List Token) : Prop where
  layout : ∀ m : Margin, m.layout ts = m.layout us
  writable : ts.all isWritable = us.all isWritable

namespace ReadAlike

variable {ts us ts' us' : List Token}

theorem refl (ts : List Token) : ReadAlike ts ts := ⟨fun _ => rfl, rfl⟩

theorem trans {ws : List Token} (h : ReadAlike ts us) (h' : ReadAlike us ws) : ReadAlike ts ws :=
  ⟨fun m => (h.layout m).trans (h'.layout m), h.writable.trans h'.writable⟩

theorem append (h : ReadAlike ts us) (h' : ReadAlike ts' us') :
    ReadAlike (ts ++ ts') (us ++ us') := by
  refine ⟨fun m => ?_, ?_⟩
  · rw [Margin.layout_append, Margin.layout_append, h.layout, h'.layout]
  · rw [List.all_append, List.all_append, h.writable, h'.writable]

theorem plainText (h : ReadAlike ts us) : plainText ts = plainText us := by
  unfold Token.plainText
  rw [h.layout]

/-- Where a name leads to is not part of the text. -/
theorem declaration (name : Scalar) (target target' : Option Target) :
    ReadAlike [.declaration name target] [.declaration name target'] :=
  ⟨fun _ => rfl, rfl⟩

end ReadAlike

/-- What stays on its line is written after the indentation that is due. -/
theorem Spell.layout_eq {ts : List Token} {cs : List Char} (h : Spell ts cs) (hne : ts ≠ [])
    (m : Margin) : m.layout ts = m.write (String.ofList cs) := by
  induction h generalizing m with
  | nil => exact absurd rfl hne
  | @cons t s ts cs ht hts ih =>
    rw [Margin.layout_cons, Spell.put ht]
    by_cases hnil : ts = []
    · subst hnil
      cases hts
      simp
    · rw [ih hnil]
      unfold Margin.write
      by_cases hp : m.pending = true <;> simp [hp, String.append_assoc]

/-- Tokens on one line read alike if they have the same characters, wherever they are cut. -/
theorem Spell.readAlike {ts us : List Token} {cs ds : List Char} (h : Spell ts cs)
    (h' : Spell us ds) (hsame : cs = ds) (hts : ts ≠ []) (hus : us ≠ []) : ReadAlike ts us := by
  refine ⟨fun m => ?_, ?_⟩
  · rw [h.layout_eq hts, h'.layout_eq hus, hsame]
  · rw [h.isWritable, h'.isWritable]

end Token

open Token (ReadAlike Spell)
open Layout

namespace Script

variable {a a' b b' s : Script} {l m n : Layout} {d : Nat} {r : Role}

/-! ### Where statements stand -/

/-- Among statements the script ends among statements, at the same depth. -/
def Stays (s : Script) : Prop := s.fault = none → ∀ d l, At d l → At d (s.after l)

namespace Stays

theorem of_neutral (h : Neutral s) : Stays s := by
  intro hf d l hl
  obtain ⟨keeps, hk⟩ := h.runs hf
  rw [(hk l hl.nonneg).after]
  exact ⟨hl.depth, hl.forHeader⟩

theorem step {t : Step} (h : ∀ d l, At d l → At d (t.apply l).1) : Stays (step t) := fun _ => h

theorem append (ha : Stays a) (hb : Stays b) : Stays (a ++ b) := by
  intro hf d l hl
  obtain ⟨hfa, hfb⟩ := fault_append_eq_none.1 hf
  rw [after_append hfa]
  exact hb hfb d _ (ha hfa d l hl)

theorem indented (h : Stays s) : Stays (indented s) := by
  intro hf d l hl
  rw [fault_indented] at hf
  rw [after_indented hf]
  exact (h hf _ _ hl.indent).outdent

theorem separator : Stays (Script.step .separator) := step fun _ _ hl => hl.separator.toAt

theorem body (h : Stays s) : Stays (body s) := by
  have hopen : Stays (Script.step .openBody) := step fun _ _ hl => ⟨hl.depth, hl.forHeader⟩
  refine (hopen.append h).append (step fun d l hl => ?_)
  rw [Step.apply, closeBody_fst]
  exact ⟨hl.depth, hl.forHeader⟩

end Stays

/-- What code gives back. -/
theorem Fits.keeps (h : Fits r s) (hf : s.fault = .none) (hl : 0 ≤ l.depth) :
    Keeps l (s.after l) := by
  have halike : Alike true l l := ⟨hl, hl, .rfl, rfl, rfl, fun _ => rfl⟩
  have hlaw := h.law
  cases r with
  | inline => exact ((Parallel.of_neutral hlaw l l halike).2 hf).2.1
  | own => exact ((hlaw l l halike).2 hf).2.1
  | started | statements => exact ((hlaw true l l halike).2 hf).2.1

/-- All code stays among statements: it leaves the headers of loops that it enters. -/
theorem Fits.stays (h : Fits r s) : Stays s := by
  induction h with
  | empty | none => exact .of_neutral .empty
  | fail f | broken f => exact .of_neutral (.fail f)
  | token h => exact .of_neutral (Fits.law (.token h))
  | names hs h => exact .of_neutral (Fits.law (.names hs h))
  | append _ _ ha hb | ownAppend _ _ ha hb | own _ _ ha hb | follow _ _ ha hb => exact ha.append hb
  | delayed _ h | later _ h | inline _ h | started _ h => exact h
  | indented _ h | ownIndented _ h => exact h.indented
  | wrapped ha hb hc => exact .of_neutral (Fits.law (.wrapped ha hb hc))
  | function hd hs => exact .of_neutral (Fits.law (.function hd hs))
  | terminate needed => exact .step fun _ _ hl => ⟨hl.depth, hl.forHeader⟩
  | body _ h => exact h.body.indented
  | first => exact .separator
  | next _ h => exact h.append .separator
  | header ha hs hc hi =>
    -- Inside the header no statement stands; only its end is known to be where it began.
    intro hf d l hl
    have hkeeps := (Fits.header ha hs hc hi).keeps hf hl.nonneg
    refine ⟨hkeeps.depth.trans hl.depth, ?_⟩
    rw [after_append (fault_append_eq_none.1 hf).1]
    rfl
  | label name =>
    exact Stays.separator.append (.step fun _ _ hl => ⟨hl.depth, hl.forHeader⟩)

/-- The layout after a separator is known but for what is suspended, and that is kept. -/
theorem ground_unique (hl : Ground d l) (hm : Ground d m) (h : Keeps l m) : m = l := by
  obtain ⟨depth, forHeader, firstStatement, needsTerminator, suspended⟩ := l
  obtain ⟨depth', forHeader', firstStatement', needsTerminator', suspended'⟩ := m
  obtain ⟨⟨rfl, rfl⟩, rfl, rfl⟩ := hl
  obtain ⟨⟨rfl, rfl⟩, rfl, rfl⟩ := hm
  obtain ⟨-, rfl⟩ := h
  rfl

/-- The parts of a statement after its separator give the layout back. -/
theorem Own.runs {u : List Token} (h : Own d s u) (hs : Fits r s) (hf : s.fault = none)
    (hl : Ground d l) : Runs s l u l := by
  obtain ⟨ht, hg⟩ := h hf l hl
  exact ⟨hf, ht, ground_unique hl hg (hs.keeps hf hl.nonneg)⟩

theorem runs_empty (l : Layout) : Runs ∅ l [] l := ⟨rfl, rfl, rfl⟩

theorem runs_separator (l : Layout) : Runs (step .separator) l l.separator.2 l.separator.1 :=
  ⟨rfl, by rw [tokens_step, Step.apply, filterMap_token], rfl⟩

theorem runs_terminate (hl : Ground d l) : Runs (step (.terminate false)) l [] l :=
  ⟨rfl, rfl, ground_unique hl ⟨⟨hl.depth, hl.forHeader⟩, hl.firstStatement, rfl⟩ ⟨rfl, rfl⟩⟩

/-- A body in braces leaves nothing due, whatever stands in it. -/
theorem Fits.ground_braced (h : Statements s) (hf : s.fault = .none) (hl : At d l) :
    Ground d ((Script.braced s).after l) := by
  have hbody : (Script.body s).fault = .none := by rw [fault_body, hf]
  have hin : Runs (Script.indented (Script.body s)) l _ _ :=
    ⟨by rw [fault_indented, hbody], rfl, after_indented hbody l⟩
  have hrun := ((((runs_text " \x7b" l).append (runs_lineBreak l)).append hin).append
    (runs_text "\x7d" _)).append (b := step (.terminate false)) ⟨rfl, rfl, rfl⟩
  have hat := (h.stays.body hbody _ _ hl.indent).outdent
  rw [Script.braced, hrun.after]
  refine ⟨⟨hat.depth, hat.forHeader⟩, ?_, rfl⟩
  show ((Script.body s).after (l.move .indent)).firstStatement = false
  rw [after_body hf, closeBody_fst]

/-- What a body in braces writes does not depend on what was suspended before it. -/
theorem Fits.exists_own_braced (h : Statements s) (d : Nat) : ∃ u, Own d (Script.braced s) u := by
  let start : Layout := { depth := d, firstStatement := false }
  refine ⟨(Script.braced s).tokens start, fun hf l hl => ?_⟩
  have halike : Alike true l start :=
    ⟨hl.nonneg, Int.natCast_nonneg d, by rw [hl.depth], hl.forHeader, hl.firstStatement,
      fun _ => hl.needsTerminator⟩
  obtain ⟨hevents, -⟩ := (Fits.braced h).law l start halike
  exact ⟨by rw [tokens, tokens, hevents], h.ground_braced (by simpa [Script.braced] using hf) hl.toAt⟩

/-! ### Runs that read alike -/

/-- A run depends on nothing but the steps. -/
theorem Runs.congr {ts : List Token} (h : Runs a l ts m) (hs : b.steps = a.steps)
    (hf : b.fault = a.fault) : Runs b l ts m := by
  refine ⟨hf.trans h.fault, ?_, ?_⟩
  · rw [← h.tokens]
    simp only [Script.tokens, events, hs]
  · rw [← h.after]
    simp only [Script.after, hs]

/-- Words on one line that leave the layout alone. -/
def Puts (s : Script) (cs : List Char) : Prop :=
  ∃ ts, ts ≠ [] ∧ Spell ts cs ∧ ∀ l, Runs s l ts l

namespace Puts

variable {cs ds : List Char}

theorem token {t : Token} {w : String} (h : t.lineText? = some w)
    (hstill : ∀ l : Layout, l.move t = l) : Puts (token t) w.toList :=
  ⟨[t], by simp, .one h, fun l => ⟨rfl, rfl, hstill l⟩⟩

theorem text (w : String) : Puts (text w) w.toList := token rfl fun _ => rfl

theorem append (ha : Puts a cs) (hb : Puts b ds) : Puts (a ++ b) (cs ++ ds) := by
  obtain ⟨ts, hts, ha, hra⟩ := ha
  obtain ⟨us, -, hb, hrb⟩ := hb
  exact ⟨ts ++ us, by simp [hts], ha.append hb, fun l => (hra l).append (hrb l)⟩

theorem delayed {part : Unit → Script} (h : Puts (part ()) cs) : Puts (delayed part) cs := by
  obtain ⟨ts, hts, h, hr⟩ := h
  exact ⟨ts, hts, h, fun l => (hr l).congr rfl rfl⟩

theorem variableUse (p : Program) {i : Nat} {name : String}
    (h : (p.localVariable ⟨i⟩).name = .ofText name) :
    Puts (p.variableUse (.entity ⟨.variable, i⟩)) (Identifier.referenced name).toList := by
  obtain ⟨tooltip, huse⟩ := variableUse_eq p h
  rw [huse]
  exact token rfl fun _ => rfl

end Puts

/-- Both scripts run from `l` to `m`, and what they write reads alike. -/
def Twins (l m : Layout) (a b : Script) : Prop :=
  ∃ ts us, Runs a l ts m ∧ Runs b l us m ∧ ReadAlike ts us

namespace Twins

theorem refl (hf : s.fault = none) (l : Layout) : Twins l (s.after l) s s :=
  ⟨s.tokens l, s.tokens l, ⟨hf, rfl, rfl⟩, ⟨hf, rfl, rfl⟩, .refl _⟩

theorem append (ha : Twins l m a a') (hb : Twins m n b b') : Twins l n (a ++ b) (a' ++ b') := by
  obtain ⟨ts, us, hta, hua, h⟩ := ha
  obtain ⟨ts', us', htb, hub, h'⟩ := hb
  exact ⟨_, _, hta.append htb, hua.append hub, h.append h'⟩

/-- What follows is the same. -/
theorem before (h : Twins l m a a') (hf : s.fault = none) :
    Twins l (s.after m) (a ++ s) (a' ++ s) := h.append (refl hf m)

theorem indented (h : Twins (l.move .indent) m a a') :
    Twins l (m.move .outdent) (indented a) (indented a') :=
  ((refl (s := token .indent) rfl l).append h).before rfl

theorem congr (h : Twins l m a b) (ha : a'.steps = a.steps) (hfa : a'.fault = a.fault)
    (hb : b'.steps = b.steps) (hfb : b'.fault = b.fault) : Twins l m a' b' := by
  obtain ⟨ts, us, hts, hus, h⟩ := h
  exact ⟨ts, us, hts.congr ha hfa, hus.congr hb hfb, h⟩

/-- The same words, wherever they are cut. -/
theorem of_puts {cs ds : List Char} (ha : Puts a cs) (hb : Puts b ds) (h : cs = ds) (l : Layout) :
    Twins l l a b := by
  obtain ⟨ts, hts, ha, hra⟩ := ha
  obtain ⟨us, hus, hb, hrb⟩ := hb
  exact ⟨ts, us, hra l, hrb l, ha.readAlike hb h hts hus⟩

/-- Twins can be written as one or as the other. -/
theorem plainText {t : String} (h : Twins {} m a b) (ha : a.plainText = .ok t) :
    b.plainText = .ok t := by
  obtain ⟨ts, us, hts, hus, h⟩ := h
  obtain ⟨-, hw, rfl⟩ := plainText_eq_ok.1 ha
  rw [written, outcome_tokens, hts.tokens] at hw ⊢
  rw [plainText_eq_ok, written, outcome_tokens, hus.tokens]
  exact ⟨hus.fault, h.writable ▸ hw, h.plainText.symm⟩

end Twins

/-- A relation of scripts that respects concatenation allows to exchange one of several parts that a
list of values stands for. -/
theorem concat_exchange {R : Script → Script → Prop} (empty : R (concat []) (concat []))
    (append : ∀ a a' b b', R a a' → R b b' → R (a ++ b) (a' ++ b')) {part : Value → Script}
    (hpart : ∀ v, R (part v) (part v)) {v w : Value} (h : R (part v) (part w))
    (before after : List Value) :
    R (concat ((before ++ v :: after).map part)) (concat ((before ++ w :: after).map part)) := by
  have hrest (vs : List Value) : R (concat (vs.map part)) (concat (vs.map part)) := by
    induction vs with
    | nil => exact empty
    | cons v vs ih => exact append _ _ _ _ (hpart v) ih
  induction before with
  | nil => exact append _ _ _ _ h (hrest after)
  | cons u before ih => exact append _ _ _ _ (hpart u) ih

/-- Parts of a statement that write the same after its separator. -/
structure Restates (d : Nat) (a b : Script) : Prop where
  fault : a.fault = none → b.fault = none
  own : ∃ u, Own d a u ∧ Own d b u

namespace Restates

theorem refl (h : ∃ u, Own d s u) : Restates d s s := by
  obtain ⟨u, hu⟩ := h
  exact ⟨id, u, hu, hu⟩

theorem append (ha : Restates d a a') (hb : Restates d b b') :
    Restates d (a ++ b) (a' ++ b') := by
  obtain ⟨u, hu, hu'⟩ := ha.own
  obtain ⟨w, hw, hw'⟩ := hb.own
  refine ⟨fun hf => ?_, _, hu.append hw, hu'.append hw'⟩
  obtain ⟨hfa, hfb⟩ := fault_append_eq_none.1 hf
  exact fault_append_eq_none.2 ⟨ha.fault hfa, hb.fault hfb⟩

/-- One of several parts that a list of values stands for. -/
theorem concat_item {part : Value → Script} (hpart : ∀ v, ∃ u, Own d (part v) u) {v w : Value}
    (h : Restates d (part v) (part w)) (before after : List Value) :
    Restates d (concat ((before ++ v :: after).map part))
      (concat ((before ++ w :: after).map part)) :=
  concat_exchange (refl ⟨[], .empty⟩) (fun _ _ _ _ => append) (fun v => refl (hpart v)) h before
    after

end Restates

/-- Where statements stand at the depth `d`, a script that does not fault can be replaced by the
other one. -/
def Retells (d : Nat) (a b : Script) : Prop :=
  a.fault = none → ∀ l, At d l → ∃ m, At d m ∧ Twins l m a b

namespace Retells

theorem of_fault {f : Fault} (h : a.fault = some f) : Retells d a b := fun hf => by simp [h] at hf

theorem of_stays (h : Stays s) : Retells d s s := fun hf l hl => ⟨_, h hf d l hl, .refl hf l⟩

/-- Code can be left as it is. -/
theorem refl (h : Fits r s) : Retells d s s := of_stays h.stays

theorem trans (hab : Retells d a b) (hbs : Retells d b s) : Retells d a s := by
  intro hf l hl
  obtain ⟨m, hm, ts, us, ha, hb, halike⟩ := hab hf l hl
  obtain ⟨n, -, us', ws, hb', hs, halike'⟩ := hbs hb.fault l hl
  obtain rfl := hb.tokens.symm.trans hb'.tokens
  obtain rfl := hb.after.symm.trans hb'.after
  exact ⟨m, hm, ts, ws, ha, hs, halike.trans halike'⟩

theorem append (ha : Retells d a a') (hb : Retells d b b') : Retells d (a ++ b) (a' ++ b') := by
  intro hf l hl
  obtain ⟨hfa, hfb⟩ := fault_append_eq_none.1 hf
  obtain ⟨m, hm, ha⟩ := ha hfa l hl
  obtain ⟨n, hn, hb⟩ := hb hfb m hm
  exact ⟨n, hn, ha.append hb⟩

/-- Parts of a statement that write the same can be replaced by each other. -/
theorem of_restates (hground : s.fault = none → ∀ l, At d l → Ground d (s.after l))
    (h : Restates d a b) (ha : Fits .own a) (hb : Fits .own b) : Retells d (s ++ a) (s ++ b) := by
  intro hf l hl
  obtain ⟨hfs, hfa⟩ := fault_append_eq_none.1 hf
  obtain ⟨u, hu, hu'⟩ := h.own
  have hl' := hground hfs l hl
  exact ⟨s.after l, hl'.toAt, (Twins.refl hfs l).append
    ⟨u, u, hu.runs ha hfa hl', hu'.runs hb (h.fault hfa) hl', .refl u⟩⟩

theorem before (h : Retells d a a') (hs : Fits r s) : Retells d (a ++ s) (a' ++ s) :=
  h.append (refl hs)

theorem after (hs : Fits r s) (h : Retells d a a') : Retells d (s ++ a) (s ++ a') :=
  (refl hs).append h

theorem of_puts {cs ds : List Char} (ha : Puts a cs) (hb : Puts b ds) (h : cs = ds) :
    Retells d a b := fun _ l hl => ⟨l, hl, .of_puts ha hb h l⟩

/-- Nothing depends on how scripts are put together from their steps. -/
theorem congr (h : Retells d a b) (ha : a'.steps = a.steps) (hfa : a'.fault = a.fault)
    (hb : b'.steps = b.steps) (hfb : b'.fault = b.fault) : Retells d a' b' := by
  intro hf l hl
  obtain ⟨m, hm, h⟩ := h (hfa ▸ hf) l hl
  exact ⟨m, hm, h.congr ha hfa hb hfb⟩

theorem delayed {part part' : Unit → Script} (h : Retells d (part ()) (part' ())) :
    Retells d (delayed part) (delayed part') := h.congr rfl rfl rfl rfl

theorem indented (h : Retells (d + 1) a a') : Retells d (indented a) (indented a') := by
  intro hf l hl
  rw [fault_indented] at hf
  obtain ⟨m, hm, h⟩ := h hf _ hl.indent
  exact ⟨_, hm.outdent, h.indented⟩

theorem body (h : Retells d a a') : Retells d (body a) (body a') := by
  intro hf l hl
  rw [fault_body] at hf
  obtain ⟨m, hm, h⟩ := h hf { l with firstStatement := true } ⟨hl.depth, hl.forHeader⟩
  refine ⟨m.closeBody.1, ?_, ((Twins.refl (s := step .openBody) rfl l).append h).before rfl⟩
  rw [closeBody_fst]
  exact ⟨hm.depth, hm.forHeader⟩

theorem braced (h : Retells (d + 1) a a') : Retells d (braced a) (braced a') :=
  (((after (.inline (.append (.text _) .lineBreak)) h.body.indented).before
    (.text _))).before (.terminate _)

theorem simple (h : Retells d a a') : Retells d (simple a) (simple a') :=
  (after .first h).before (.terminate _)

/-- What follows several parts is the last of them. -/
theorem concat_snoc {parts : List Script} (hparts : ∀ s ∈ parts, Fits r s) (h : Retells d a b) :
    Retells d (concat parts ++ a) (concat (parts ++ [b])) := by
  induction parts with
  | nil =>
    refine h.congr ?_ ?_ ?_ ?_ <;> simp [concat, steps_append]
  | cons s parts ih =>
    have hs := hparts s (List.mem_cons_self ..)
    have hrest := ih fun t ht => hparts t (List.mem_cons_of_mem _ ht)
    refine (after hs hrest).congr (steps_append_assoc ..) ?_ rfl rfl
    simp [concat, Option.or_assoc]

/-- One of several parts that a list of values stands for. -/
theorem concat_item {part : Value → Script} (hpart : ∀ v, Fits r (part v)) {v w : Value}
    (h : Retells d (part v) (part w)) (before after : List Value) :
    Retells d (concat ((before ++ v :: after).map part))
      (concat ((before ++ w :: after).map part)) :=
  concat_exchange (refl .empty) (fun _ _ _ _ => append) (fun v => refl (hpart v)) h before after

end Retells

end Script

end Scribe
