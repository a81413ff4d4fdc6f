import Scribe.Proofs.Agreement
import Scribe.Proofs.Variation

/-!
# Renaming variables

`Context.renaming_keeps_tokens`: if nothing but the names of local variables changes, a render ends in
the same way, and writes the same tokens but for the names and descriptions of those variables. Whether
an assignment is a counter, whether a case needs its subject, which variables a body declares: all of
that goes by the places of variables and not by their names.

A message shows the value that it is about, and so does a line of a header. If a variable stands in
that value, its name is part of the text; apart from such names the two texts are one (`Text.Renamed`).

Names decide only where an attribute is told by its type, and where the `Invoke` method of a delegate
is looked for. A variable has no place there, and none may stand there by mistake
(`Program.LocalsApart`): members belong to types, and types list methods.
-/

namespace Scribe

open Script

namespace Program

/-- Names of variables by their places in the table, where they have names. -/
def renamedLocals (p : Program) (names : Nat → String) : Array VariableSymbol :=
  p.locals.mapIdx fun i v => { v with name := v.name.mapText fun _ => names i }

/-- The program with other names for its variables. -/
def renamed (p : Program) (names : Nat → String) : Program := p.withLocals (p.renamedLocals names)

variable (p : Program) (names : Nat → String)

theorem renamed_localVariable (i : Nat) : (p.renamed names).localVariable ⟨i⟩ =
    { p.localVariable ⟨i⟩ with name := (p.localVariable ⟨i⟩).name.mapText fun _ => names i } := by
  show ((p.renamedLocals names).getD i default) = _
  unfold renamedLocals localVariable
  by_cases h : i < p.locals.size
  · simp [Array.getD, h]
  · simp [Array.getD, h]
    rfl

end Program

/-! ### Texts that show names -/

/-- A piece of a text that shows a value: the same characters under all names, or the name of the
variable at a place. -/
inductive Piece
  | same (cs : List Char)
  | name (i : Nat)

/-- The characters of a piece in a text of the program. -/
def Piece.shown (p : Program) : Piece → List Char
  | .same cs => cs
  | .name i => match (p.localVariable ⟨i⟩).name with
    | .scalar s => s.exact.toList
    | _ => []

/-- The same text, but for the names of variables that it shows. -/
def Text.Renamed (p p' : Program) (a b : String) : Prop :=
  ∃ pieces : List Piece, a.toList = pieces.flatMap (·.shown p) ∧
    b.toList = pieces.flatMap (·.shown p')

/-- The same text but for the names of variables, or one fault. -/
inductive Told.Renamed (p p' : Program) : Except Fault String → Except Fault String → Prop
  | ok {a b : String} : Text.Renamed p p' a b → Renamed p p' (.ok a) (.ok b)
  | error (f : Fault) : Renamed p p' (.error f) (.error f)

/-- The texts of one value in the two programs, which are the same but for the names of variables. -/
structure Value.ShownRenamed (p p' : Program) (a b : String) : Prop where
  value : ∃ v, p.plain v = .ok a ∧ p'.plain v = .ok b ∨ p.exact v = .ok a ∧ p'.exact v = .ok b
  text : Text.Renamed p p' a b

/-- The same fault, but for the names of variables in the values that its message shows. -/
inductive Fault.Renamed (p p' : Program) : Fault → Fault → Prop
  | same (f : Fault) : Renamed p p' f f
  | literal {a b : String} {kind kind' : Option String} : Value.ShownRenamed p p' a b →
    Option.Rel (Value.ShownRenamed p p') kind kind' →
    Renamed p p' (.literal a kind) (.literal b kind')
  | noAccessor {a b : String} : Value.ShownRenamed p p' a b →
    Renamed p p' (.noAccessor a) (.noAccessor b)
  | noInvoke {a b : String} : Value.ShownRenamed p p' a b → Renamed p p' (.noInvoke a) (.noInvoke b)

/-- The same token, but for the name and the description of a variable, and for the names of
variables in a value that a header shows. -/
inductive Token.Renamed (p p' : Program) : Token → Token → Prop
  | same (t : Token) : Renamed p p' t t
  | declaration (name name' : String) (i : Nat) :
    Renamed p p' (.declaration (.text name) (some (.entity ⟨.variable, i⟩)))
      (.declaration (.text name') (some (.entity ⟨.variable, i⟩)))
  | reference (name name' tooltip tooltip' : String) (i : Nat) :
    Renamed p p' (.reference (.text name) (.text tooltip) (some (.entity ⟨.variable, i⟩)))
      (.reference (.text name') (.text tooltip') (some (.entity ⟨.variable, i⟩)))
  | header (before after : String) {a b : String} : Value.ShownRenamed p p' a b →
    Renamed p p' (.text ("// " ++ before ++ a ++ after)) (.text ("// " ++ before ++ b ++ after))

theorem Token.Renamed.aligned (p p' : Program) : Token.Aligned (Token.Renamed p p') where
  refl := .same
  move h l := by cases h <;> rfl

namespace Text.Renamed

variable {p p' : Program} {a b a' b' : String}

theorem refl (a : String) : Text.Renamed p p' a a :=
  ⟨[.same a.toList], by simp [Piece.shown], by simp [Piece.shown]⟩

theorem append (h : Text.Renamed p p' a b) (h' : Text.Renamed p p' a' b') :
    Text.Renamed p p' (a ++ a') (b ++ b') := by
  obtain ⟨pieces, ha, hb⟩ := h
  obtain ⟨pieces', ha', hb'⟩ := h'
  exact ⟨pieces ++ pieces', by simp [ha, ha'], by simp [hb, hb']⟩

theorem intercalate (separator : String) {as bs : List String}
    (h : List.Forall₂ (Text.Renamed p p') as bs) :
    Text.Renamed p p' (separator.intercalate as) (separator.intercalate bs) := by
  induction h with
  | nil => exact .refl _
  | cons h hs ih =>
    cases hs with
    | nil => simpa only [String.intercalate_singleton] using h
    | cons =>
      rw [String.intercalate_cons_cons, String.intercalate_cons_cons]
      exact (h.append (.refl _)).append ih

/-- The fields of a node, each after its name. -/
theorem fields (names : List String) {as bs : List String}
    (h : List.Forall₂ (Text.Renamed p p') as bs) : List.Forall₂ (Text.Renamed p p')
      (List.zipWith (fun name text => name ++ "=" ++ text) names as)
      (List.zipWith (fun name text => name ++ "=" ++ text) names bs) := by
  induction h generalizing names with
  | nil => simp
  | cons h _ ih =>
    cases names with
    | nil => exact .nil
    | cons name names => exact .cons ((refl _).append h) (ih names)

end Text.Renamed

namespace Told.Renamed

variable {p p' : Program}

theorem refl (x : Except Fault String) : Told.Renamed p p' x x := by
  cases x with
  | ok a => exact .ok (.refl a)
  | error f => exact .error f

/-- What is made of texts that are told one after the other. -/
theorem mapM {xs xs' : List (Except Fault String)} (h : List.Forall₂ (Told.Renamed p p') xs xs')
    {f f' : List String → String} (hf : ∀ as bs, List.Forall₂ (Text.Renamed p p') as bs →
      Text.Renamed p p' (f as) (f' bs)) :
    Told.Renamed p p' ((xs.mapM id).map f) ((xs'.mapM id).map f') := by
  have hcons (a : String) (xs : List (Except Fault String)) (f : List String → String) :
      (((Except.ok a :: xs).mapM id).map f) = (xs.mapM id).map fun as => f (a :: as) := by
    rw [List.mapM_cons]
    cases xs.mapM id <;> rfl
  induction h generalizing f f' with
  | nil => exact .ok (hf _ _ .nil)
  | cons h _ ih =>
    cases h with
    | error e => exact .error e
    | ok h =>
      rw [hcons, hcons]
      exact ih fun as bs hs => hf _ _ (.cons h hs)

theorem nodeText (kind : String) (names : List String) {xs xs' : List (Except Fault String)}
    (h : List.Forall₂ (Told.Renamed p p') xs xs') :
    Told.Renamed p p' (Scribe.nodeText kind names xs) (Scribe.nodeText kind names xs') :=
  mapM h fun _ _ hs =>
    (((Text.Renamed.refl _).append (.intercalate _ (Text.Renamed.fields names hs))).append (.refl _))

end Told.Renamed

namespace Value

variable {p p' : Program} {entity entity' : Entity → Except Fault String}

theorem mapText_of_not_text {v : Value} (h : ¬∃ s, v = .ofText s) (f : String → String) :
    v.mapText f = v := by
  unfold mapText Scalar.mapText
  split
  · split
    · exact absurd ⟨_, rfl⟩ h
    · rfl
  · rfl

/-- Values are told alike where entities are. -/
theorem exactBy_renamed (h : ∀ e, Told.Renamed p p' (entity e) (entity' e)) (v : Value) :
    Told.Renamed p p' (v.exactBy entity) (v.exactBy entity') := by
  induction v using slot_induction with
  | slots v ih =>
    have hslots : List.Forall₂ (Told.Renamed p p') (v.slots.map (exactBy entity))
        (v.slots.map (exactBy entity')) := related_map ih
    cases v with
    | scalar s => exact .refl _
    | list items =>
      rw [exactBy, exactBy, exactAllBy_eq, exactAllBy_eq]
      refine .mapM hslots fun _ _ hs => ?_
      exact ((Text.Renamed.refl _).append (.intercalate _ hs)).append (.refl _)
    | entity e => exact h e
    | bounds => exact .refl _
    | «attribute» => exact .nodeText _ _ hslots
    | type tree =>
      rw [exactBy, exactBy, TypeTree.exactSlotsBy_eq, TypeTree.exactSlotsBy_eq]
      exact .nodeText _ _ hslots
    | expr tree =>
      rw [exactBy, exactBy, Expr.exactSlotsBy_eq, Expr.exactSlotsBy_eq]
      exact .nodeText _ _ hslots
    | stmt tree =>
      rw [exactBy, exactBy, Stmt.exactSlotsBy_eq, Stmt.exactSlotsBy_eq]
      exact .nodeText _ _ hslots
    | clause tree =>
      rw [exactBy, exactBy, Clause.exactSlotsBy_eq, Clause.exactSlotsBy_eq]
      exact .nodeText _ _ hslots

end Value

namespace Program

variable (p : Program) (names : Nat → String)

/-- A name of a variable is told as it is in each of the programs. -/
theorem exactBy_name {entity entity' : Entity → Except Fault String}
    (h : ∀ e, Told.Renamed p (p.renamed names) (entity e) (entity' e)) (i : Nat) :
    Told.Renamed p (p.renamed names) ((p.localVariable ⟨i⟩).name.exactBy entity)
      (((p.renamed names).localVariable ⟨i⟩).name.exactBy entity') := by
  have hname := congrArg VariableSymbol.name (p.renamed_localVariable names i)
  by_cases htext : ∃ name, (p.localVariable ⟨i⟩).name = .ofText name
  · obtain ⟨name, hi⟩ := htext
    rw [hi] at hname
    rw [hi, hname]
    refine .ok ⟨[.name i], ?_, ?_⟩
    · rw [List.flatMap_singleton, Piece.shown, hi]
      rfl
    · rw [List.flatMap_singleton, Piece.shown, hname]
      rfl
  · have hsame : ((p.renamed names).localVariable ⟨i⟩).name = (p.localVariable ⟨i⟩).name := by
      rw [hname]
      exact Value.mapText_of_not_text htext _
    rw [hsame]
    exact Value.exactBy_renamed h _

theorem entityTextWithin_renamed (depth : Nat) (around : List Entity) (e : Entity) :
    Told.Renamed p (p.renamed names) (p.entityTextWithin depth around e)
      ((p.renamed names).entityTextWithin depth around e) := by
  induction depth generalizing around e with
  | zero => exact .refl _
  | succ depth ih =>
    unfold entityTextWithin
    split_ifs with hin
    · exact .refl _
    have hkind : (p.renamed names).kindName e = p.kindName e := rfl
    rw [hkind]
    by_cases hv : e.kind = .variable
    · obtain ⟨_, i⟩ := e
      obtain rfl : _ = EntityKind.variable := hv
      have htype : ((p.renamed names).localVariable ⟨i⟩).type = (p.localVariable ⟨i⟩).type := by
        rw [renamed_localVariable]
      refine .nodeText _ _ (.cons (p.exactBy_name names (ih _) i) (.cons ?_ .nil))
      dsimp only
      rw [htype]
      exact Value.exactBy_renamed (ih _) _
    · have hparts : (p.renamed names).shownParts e = p.shownParts e :=
        congrArg (List.filter _) (p.withLocals_parts _ hv)
      rw [hparts]
      exact .nodeText _ _ (related_map fun part _ => Value.exactBy_renamed (ih _) _)

theorem exact_renamed (v : Value) :
    Told.Renamed p (p.renamed names) (p.exact v) ((p.renamed names).exact v) := by
  have hentities : (p.renamed names).entities = p.entities := by
    simp [entities, renamed, withLocals, renamedLocals]
  refine Value.exactBy_renamed (fun e => ?_) v
  unfold entityText
  rw [hentities]
  exact p.entityTextWithin_renamed names _ _ e

theorem plain_renamed (v : Value) :
    Told.Renamed p (p.renamed names) (p.plain v) ((p.renamed names).plain v) := by
  cases v with
  | scalar s => exact .refl _
  | _ => exact p.exact_renamed names _

/-! Faults -/

variable {p names} in
theorem showing_renamed {x x' : Except Fault String} {f f' : String → Fault}
    (h : Told.Renamed p (p.renamed names) x x')
    (hf : ∀ a b, x = .ok a → x' = .ok b → Text.Renamed p (p.renamed names) a b →
      Fault.Renamed p (p.renamed names) (f a) (f' b)) :
    Fault.Renamed p (p.renamed names) (.showing x f) (.showing x' f') := by
  cases h with
  | ok h => exact hf _ _ rfl rfl h
  | error e => exact .same e

theorem showing_plain (v : Value) {f f' : String → Fault}
    (hf : ∀ a b, Value.ShownRenamed p (p.renamed names) a b →
      Fault.Renamed p (p.renamed names) (f a) (f' b)) :
    Fault.Renamed p (p.renamed names) (.showing (p.plain v) f)
      (.showing ((p.renamed names).plain v) f') :=
  showing_renamed (p.plain_renamed names v) fun _ _ ha hb h => hf _ _ ⟨⟨v, .inl ⟨ha, hb⟩⟩, h⟩

theorem showing_exact (v : Value) {f f' : String → Fault}
    (hf : ∀ a b, Value.ShownRenamed p (p.renamed names) a b →
      Fault.Renamed p (p.renamed names) (f a) (f' b)) :
    Fault.Renamed p (p.renamed names) (.showing (p.exact v) f)
      (.showing ((p.renamed names).exact v) f') :=
  showing_renamed (p.exact_renamed names v) fun _ _ ha hb h => hf _ _ ⟨⟨v, .inr ⟨ha, hb⟩⟩, h⟩

theorem literalFault_renamed (value kind : Value) : Fault.Renamed p (p.renamed names)
    (p.literalFault value kind) ((p.renamed names).literalFault value kind) := by
  unfold literalFault
  split_ifs
  · refine p.showing_plain names kind fun _ _ hkind => ?_
    exact p.showing_exact names value fun _ _ h => .literal h (.some hkind)
  · exact p.showing_exact names value fun _ _ h => .literal h .none

theorem noAccessor_renamed (id : PropertyId) : Fault.Renamed p (p.renamed names)
    (p.noAccessor id) ((p.renamed names).noAccessor id) :=
  p.showing_plain names _ fun _ _ => .noAccessor

theorem noInvoke_renamed (t : TypeId) : Fault.Renamed p (p.renamed names)
    (p.noInvoke t) ((p.renamed names).noInvoke t) :=
  p.showing_plain names _ fun _ _ => .noInvoke

end Program

namespace Literal

variable (p p' : Program) (format : NumberFormat)

/-- A scalar has one text under all names, and one message. -/
theorem textOfScalar_eq (s : Scalar) (kind : String) :
    textOfScalar p format s kind = textOfScalar p' format s kind := by
  have hfault (n : Int) : p.literalFault (.scalar (.int n)) (.ofText kind) =
      p'.literalFault (.scalar (.int n)) (.ofText kind) := by
    simp only [Program.literalFault, Value.ofText, Program.exact_scalar, Program.plain_scalar]
  unfold textOfScalar
  split
  case h_9 n _ _ _ _ => simp only [integer, hfault]
  all_goals rfl

/-- A literal has one text under all names, or a message that shows its value. -/
theorem text_cases (value kind : Value) :
    text p format value kind = text p' format value kind ∨ ∃ shown,
      text p format value kind = .error (p.literalFault value shown) ∧
        text p' format value kind = .error (p'.literalFault value shown) := by
  unfold text
  generalize kindOf value kind = slot
  split
  · next kind =>
    unfold textAt
    split_ifs with hnull
    · exact .inl (by rw [Option.getD_some, Option.getD_some])
    split
    · next s =>
      rw [textOfScalar_eq p p']
      cases textOfScalar p' format s kind with
      | none => exact .inr ⟨_, Option.getD_none, Option.getD_none⟩
      | some t => exact .inl (by rw [Option.getD_some, Option.getD_some])
    · exact .inr ⟨_, Option.getD_none, Option.getD_none⟩
  · unfold Value.lookupFault
    split
    · exact .inr ⟨_, rfl, rfl⟩
    · exact .inr ⟨_, rfl, rfl⟩
    · exact .inl rfl

end Literal

/-! ### Renders -/

namespace Program

variable (p : Program)

/-- No variable stands where things are looked up by their names. -/
structure LocalsApart : Prop where
  /-- No member belongs to a variable. -/
  owner (member : Value) (i : Nat) : p.ownerSlot member ≠ .ok (.entity ⟨.variable, i⟩)
  /-- No variable is listed among the methods of a type. -/
  method (t : TypeId) (d : TypeDetails) : (p.type t).declared = some d →
    ∀ i, .entity ⟨.variable, i⟩ ∉ d.methods.slots

variable {p} (hp : p.LocalsApart) (ls : Array VariableSymbol)

include hp

theorem LocalsApart.attributeName (a : Value) :
    (p.withLocals ls).attributeName a = p.attributeName a := by
  unfold Program.attributeName
  split
  · next constructor arguments _ =>
    rw [withLocals_ownerSlot]
    cases howner : p.ownerSlot constructor with
    | error f => rfl
    | ok owner =>
      have happart (i : Nat) : owner ≠ .entity ⟨.variable, i⟩ := by
        rintro rfl
        exact hp.owner constructor i howner
      simp only [Except.bind, p.withLocals_named ls happart]
  · rfl

theorem LocalsApart.findMethod (t : TypeId) (name : Scalar) :
    (p.withLocals ls).findMethod t name = p.findMethod t name := by
  have hnamed {l : List Value} (hl : ∀ v ∈ l, ∀ i, v ≠ .entity ⟨.variable, i⟩) :
      (p.withLocals ls).findNamed name l = p.findNamed name l := by
    induction l with
    | nil => rfl
    | cons v l ih =>
      obtain ⟨hv, hl⟩ := List.forall_mem_cons.1 hl
      rw [findNamed, findNamed, p.withLocals_named ls hv, ih hl]
  unfold Program.findMethod
  rw [withLocals_type]
  cases hd : (p.type t).declared with
  | none => rfl
  | some d =>
    cases hi : d.methods.items with
    | error f => simp only [hi, Except.bind]
    | ok methods =>
      simp only [hi, Except.bind]
      refine hnamed fun v hv i => ?_
      rintro rfl
      rcases Value.mem_items hi hv with hslot | ⟨s, hs⟩
      · exact hp.method t d hd i hslot
      · cases hs

end Program

namespace Context

/-- The context with other names for its variables. -/
def renamed (c : Context) (names : Nat → String) : Context :=
  { c with program := c.program.renamed names }

variable (c : Context) (names : Nat → String)

/-- Renders that agree but for the names of variables. -/
abbrev RenamedAlike : Script → Script → Prop :=
  Agree (Fault.Renamed c.program (c.program.renamed names))
    (Token.Renamed c.program (c.program.renamed names))

theorem renamedAlike_congruence : Congruence (c.RenamedAlike names) :=
  Agree.congruence .same _

/-- Two names of a variable, which are texts, are written in the same places. -/
theorem namedAlike_texts (i : Nat) (name name' : String) :
    NamedAlike (c.RenamedAlike names) ⟨.entity ⟨.variable, i⟩, .ofText name⟩
      ⟨.entity ⟨.variable, i⟩, .ofText name'⟩ := by
  have hparameter (name : String) :
      ∃ shown, Program.parameterName (.ofText name) = .ofText shown := by
    unfold Program.parameterName
    split
    · exact ⟨name, rfl⟩
    · exact ⟨"A", rfl⟩
  refine .mk (fun kind a a' h => ?_) ?_ ?_ ?_
  · exact (c.renamedAlike_congruence names).append (Agree.log _ _) h
  · exact Agree.token (.declaration _ _ i)
  · exact Agree.token (.reference _ _ _ _ i)
  · obtain ⟨shown, hshown⟩ := hparameter name
    obtain ⟨shown', hshown'⟩ := hparameter name'
    unfold Program.parameterDescription
    rw [hshown, hshown']
    exact Agree.token (.reference _ _ _ _ i)

theorem renamed_named (v : Value) : Option.Rel (NamedAlike (c.RenamedAlike names))
    (c.program.named? v) ((c.program.renamed names).named? v) := by
  have hsame (n : Option Named) : Option.Rel (NamedAlike (c.RenamedAlike names)) n n := by
    cases n with
    | none => exact .none
    | some n => exact .some (.refl (c.renamedAlike_congruence names) n)
  by_cases h : ∃ i, v = .entity ⟨.variable, i⟩
  · obtain ⟨i, rfl⟩ := h
    refine .some ?_
    show NamedAlike _ ⟨_, (c.program.localVariable ⟨i⟩).name⟩
      ⟨_, ((c.program.renamed names).localVariable ⟨i⟩).name⟩
    rw [Program.renamed_localVariable]
    by_cases htext : ∃ name, (c.program.localVariable ⟨i⟩).name = .ofText name
    · obtain ⟨name, hname⟩ := htext
      rw [hname]
      exact c.namedAlike_texts names i name (names i)
    · rw [Value.mapText_of_not_text htext]
      exact .refl (c.renamedAlike_congruence names) _
  · rw [Program.renamed, Program.withLocals_named _ _ fun i hi => h ⟨i, hi⟩]
    exact hsame _

theorem renamed_hoisted (body : Value) :
    (c.program.renamed names).hoisted body = c.program.hoisted body := by
  have hlocals (f : String → String) (v : Value) : (v.mapText f).locals = v.locals := by
    cases v <;> rfl
  cases body with
  | entity e =>
    obtain ⟨kind, i⟩ := e
    cases kind with
    | «variable» =>
      have hbound (p : Program) : p.hoisted (.entity ⟨.variable, i⟩) = .ok (Value.localsOfAll
        [(p.localVariable ⟨i⟩).name, (p.localVariable ⟨i⟩).type]).eraseDups := rfl
      rw [hbound, hbound, Program.renamed_localVariable]
      simp only [Value.localsOfAll, hlocals]
    | _ => rfl
  | scalar s => cases s <;> rfl
  | _ => rfl

/-- Literals have one text under all names, or messages that differ in names. -/
theorem literal_renamed (value kind : Value) : c.RenamedAlike names (c.expr (.literal value kind))
    ((c.renamed names).expr (.literal value kind)) := by
  show Agree _ _ (given (Literal.text c.program c.style.numberFormat value kind) text)
    (given (Literal.text (c.program.renamed names) c.style.numberFormat value kind) text)
  obtain h | ⟨shown, h, h'⟩ := Literal.text_cases c.program (c.program.renamed names)
    c.style.numberFormat value kind
  · rw [h]
    exact (c.renamedAlike_congruence names).refl _
  · rw [h, h']
    exact Agree.fail (c.program.literalFault_renamed names _ _)

theorem shownText_renamed (before : String) (v : Value) (after : String) :
    c.RenamedAlike names (c.program.shownText before v after)
      ((c.program.renamed names).shownText before v after) := by
  have hplain := c.program.plain_renamed names v
  unfold Program.shownText
  generalize hx : c.program.plain v = x at hplain ⊢
  generalize hx' : (c.program.renamed names).plain v = x' at hplain ⊢
  cases hplain with
  | ok h => exact Agree.token (.header _ _ ⟨⟨v, .inl ⟨hx, hx'⟩⟩, h⟩)
  | error f => exact Agree.fail (.same f)

/-- A program and the program with other names of variables are rendered alike. -/
theorem renamed_varies (hp : c.program.LocalsApart) :
    Varies c (c.program.renamedLocals names) c.style.numberFormat (fun _ => True) (fun _ => True)
      (c.RenamedAlike names) where
  toCongruence := c.renamedAlike_congruence names
  named := c.renamed_named names
  closed := ⟨fun _ => ⟨trivial, trivial⟩, fun _ _ => trivial, fun _ _ => trivial,
    fun _ _ _ => trivial⟩
  literal _ := c.literal_renamed names _ _
  hoisted := c.renamed_hoisted names
  attributeName := hp.attributeName _
  findMethod := hp.findMethod _
  shownText := c.shownText_renamed names
  noAccessor id := Agree.fail (c.program.noAccessor_renamed names id)
  noInvoke t := Agree.fail (c.program.noInvoke_renamed names t)

/-- Other names of local variables change nothing but these names. Both renders end well or neither
does, with the same fault but for the names in what its message shows; and every token is the same, but
for the name and the description of a variable and for the names in a value that a header shows. -/
theorem renaming_keeps_tokens (hp : c.program.LocalsApart) (v : Value) :
    Option.Rel (Fault.Renamed c.program (c.program.renamed names))
        (c.render v).fault ((c.renamed names).render v).fault ∧
      List.Forall₂ (Token.Renamed c.program (c.program.renamed names)) (c.render v).outcome.tokens
        ((c.renamed names).render v).outcome.tokens := by
  have h : c.RenamedAlike names (c.render v) ((c.renamed names).render v) :=
    (c.renamed_varies names hp).render v
  exact ⟨h.fault, h.tokens (Token.Renamed.aligned ..)⟩

/-- A method that sets a variable to another one and 1: with one name for both, it does not become a
counter. -/
theorem renaming_keeps_tokens_one_name :
    let x := Value.entity ⟨.variable, 0⟩
    let y := Value.entity ⟨.variable, 1⟩
    let sum : Value := .expr (.binary (.expr (.variable y)) (.ofText "add")
      (.expr (.literal (.scalar (.int 1)) .null)))
    let body : Value := .stmt (.block (.list [.stmt (.expression (.expr (.declare x))),
      .stmt (.expression (.expr (.declare y))),
      .stmt (.expression (.expr (.assign (.expr (.variable x)) sum)))]))
    let c : Context := {
      program := {
        types := #[
          { name := .ofText "A", declared := some ⟨.null, .null, .null, .null, .null, .list [],
              .list [], .list [.entity ⟨.method, 0⟩], .list [], .list [], .list [], .list []⟩ }],
        methods := #[
          { name := .ofText "m", owner := .entity ⟨.type, 0⟩, parameters := .list [],
            declared := some ⟨.ofText "public", .null, .null, .null, .null, .null, .null, .null, body,
              .list [], .list []⟩ }],
        locals := #[{ name := .ofText "x" }, { name := .ofText "y" }] },
      style := { showTypeBody := true } }
    let v := Value.entity ⟨.type, 0⟩
    c.program.LocalsApart ∧ ((c.renamed fun _ => "x").render v).fault = none ∧
      List.Forall₂ (Token.Renamed c.program (c.renamed fun _ => "x").program) (c.render v).outcome.tokens
        ((c.renamed fun _ => "x").render v).outcome.tokens := by
  intro x y sum body c v
  have hp : c.program.LocalsApart := by
    constructor
    · rintro (_ | _ | ⟨kind, _ | i⟩ | _ | _ | _ | _ | _ | _) j
      case entity.zero => cases kind <;> exact nofun
      case entity.succ => cases kind <;> exact nofun
      all_goals exact nofun
    · rintro ⟨_ | t⟩ d hd j
      · cases hd
        exact fun h => by cases h with | tail _ h => cases h
      · cases hd
  obtain ⟨hfault, htokens⟩ := c.renaming_keeps_tokens (fun _ => "x") hp v
  have hf : (c.render v).fault = none := by rfl
  rw [hf] at hfault
  refine ⟨hp, ?_, htokens⟩
  cases h : ((c.renamed fun _ => "x").render v).fault with
  | none => rfl
  | some f =>
    rw [h] at hfault
    cases hfault

/-- A variable that stands in a literal, in the size of a module, as the owner of the constructor of
an attribute, and among the methods of a delegate. With another name the message and the header show
that name, the attribute is left out, and the delegate has no `Invoke` method. -/
theorem renaming_shows_names :
    let bound := Value.entity ⟨.variable, 0⟩
    let note := Value.attribute (.entity ⟨.method, 0⟩) (.list [])
    let c : Context := {
      program := {
        types := #[{ nameSpace := .ofText "System", name := .ofText "MulticastDelegate" },
          { name := .ofText "D", declared := some ⟨.null, .null, .null, .null, .entity ⟨.type, 0⟩, .null,
              .null, .list [bound], .null, .null, .null, .list []⟩ }],
        fields := #[{ name := .ofText "f", type := .entity ⟨.type, 0⟩, declared := some ⟨
            .ofText "public", .null, .null, .null, .null, .null, .null, .list [note]⟩ }],
        methods := #[{ name := .ofText ".ctor", owner := bound, parameters := .list [] }],
        locals := #[{ name := .ofText "Invoke" }],
        modules := #[{ name := .ofText "m", declared := some ⟨.null, .null, bound, .list []⟩ }] },
      style := { showAttributes := true } }
    let other := c.renamed fun _ => "DefaultParameterValueAttribute"
    let literal := Value.expr (.literal bound .null)
    ((c.render literal).fault =
        some (.literal "VariableDeclaration(name='Invoke', variable_type=None)" none) ∧
      (other.render literal).fault = some (.literal
        "VariableDeclaration(name='DefaultParameterValueAttribute', variable_type=None)" none)) ∧
    (.text "// Size: VariableDeclaration(name='Invoke', variable_type=None) bytes" ∈
        (c.render (.entity ⟨.module, 0⟩)).outcome.tokens ∧
      .text "// Size: VariableDeclaration(name='DefaultParameterValueAttribute', variable_type=None) bytes" ∈
        (other.render (.entity ⟨.module, 0⟩)).outcome.tokens) ∧
    ((c.render (.entity ⟨.field, 0⟩)).fault = some .malformed ∧
      (other.render (.entity ⟨.field, 0⟩)).fault = none) ∧
    ((c.render (.entity ⟨.type, 1⟩)).fault = some .malformed ∧
      (other.render (.entity ⟨.type, 1⟩)).fault = some (.noInvoke "D")) := by
  intro bound note c other literal
  refine ⟨⟨?_, ?_⟩, ⟨?_, ?_⟩, ⟨by rfl, by rfl⟩, ⟨by rfl, by rfl⟩⟩
  all_goals decide +kernel

end Context

end Scribe
