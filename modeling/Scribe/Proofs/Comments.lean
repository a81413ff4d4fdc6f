import Scribe.Proofs.Spelling

/-!
# Comments do not leak

A comment of one line stands behind `//`, and no character of a line ends a line of code. A comment of
several lines stands between `/*` and `*/`, with the indentation before each of its lines and a line break
behind it. Neither a line break nor a space is part of a `*/`, so the first `*/` is the last one just
where no line has one of its own (`Context.comment_closed_iff`).
-/

namespace Scribe

open Script

/-! ### Comments as they are read -/

namespace Text

/-- The characters that end a line of code. All of them end a line of text. -/
def isLineTerminator (c : Char) : Bool := [0x0A, 0x0D, 0x2028, 0x2029].contains c.toNat

/-- What follows the first `*/`, if there is one. -/
def afterClose? : List Char → Option (List Char)
  | '*' :: '/' :: rest => some rest
  | _ :: rest => afterClose? rest
  | [] => none

/-- One comment and nothing else: what follows `//` ends no line, or what follows `/*` ends with its first
`*/`. -/
def IsComment : List Char → Prop
  | '/' :: '/' :: rest => ∀ c ∈ rest, isLineTerminator c = false
  | '/' :: '*' :: rest => afterClose? rest = some []
  | _ => False

variable {a b : List Char} {c : Char}

/-- A character that is not followed to a `*/` is passed over. -/
theorem afterClose?_cons (h : ¬ (c = '*' ∧ ∃ rest, a = '/' :: rest)) :
    afterClose? (c :: a) = afterClose? a := by
  rw [afterClose?]
  rintro rest rfl rfl
  exact h ⟨rfl, rest, rfl⟩

/-- There is no `*/` just where nothing follows one. -/
theorem afterClose?_eq_none_iff : afterClose? a = none ↔ ¬ ['*', '/'] <:+: a := by
  induction a using afterClose?.induct with
  | case1 rest =>
    rw [afterClose?]
    exact iff_of_false nofun (not_not.2 ⟨[], rest, rfl⟩)
  | case2 c rest h ih =>
    rw [afterClose?_cons (by rintro ⟨rfl, r, rfl⟩; exact h r rfl rfl), ih, not_iff_not,
      List.infix_cons_iff]
    refine (or_iff_right fun hprefix => ?_).symm
    obtain ⟨r, hr⟩ := hprefix
    cases hr
    exact h r rfl rfl
  | case3 => exact iff_of_true rfl (by simp)

/-- A character that is no part of a `*/` keeps what stands before it from what follows. -/
theorem afterClose?_append (hstar : c ≠ '*') (hslash : c ≠ '/') :
    afterClose? (a ++ c :: b) =
      (afterClose? a).elim (afterClose? b) fun rest => some (rest ++ c :: b) := by
  induction a using afterClose?.induct with
  | case1 rest => rfl
  | case2 d rest h ih =>
    rw [List.cons_append, afterClose?_cons, afterClose?_cons, ih]
    · rintro ⟨rfl, r, rfl⟩
      exact h r rfl rfl
    · rintro ⟨rfl, r, hr⟩
      cases rest with
      | nil => exact hslash (List.cons.inj hr).1
      | cons e rest =>
        obtain ⟨rfl, -⟩ := List.cons.inj hr
        exact h rest rfl rfl
  | case3 => exact afterClose?_cons fun h => hstar h.1

/-- Nor is any space in front. -/
theorem afterClose?_spaces (n : Nat) : afterClose? (List.replicate n ' ' ++ a) = afterClose? a := by
  induction n with
  | zero => rfl
  | succ n ih =>
    rw [List.replicate_succ, List.cons_append, afterClose?_cons fun h => absurd h.1 (by decide), ih]

/-- Lines with an indentation before and a line break behind each of them, and a `*/` at the end: it is
the first just where no line has one. -/
theorem afterClose?_lines (n : Nat) (lines : List (List Char)) :
    afterClose? ((lines.flatMap fun line => List.replicate n ' ' ++ line ++ ['\n']) ++
      (List.replicate n ' ' ++ ['*', '/'])) = some [] ↔
      ∀ line ∈ lines, ¬ ['*', '/'] <:+: line := by
  induction lines with
  | nil => exact iff_of_true (afterClose?_spaces n) nofun
  | cons line lines ih =>
    rw [List.forall_mem_cons, ← afterClose?_eq_none_iff, ← ih]
    simp only [List.flatMap_cons, List.append_assoc, List.cons_append, List.nil_append]
    rw [afterClose?_spaces, afterClose?_append (by decide) (by decide)]
    -- What follows a close in this line is not empty: the line break is still to come.
    cases hline : afterClose? line with
    | none => simp
    | some rest => simp

theorem not_terminator_of_not_boundary (h : isLineBoundary c = false) :
    isLineTerminator c = false := by
  simp only [isLineBoundary, isLineTerminator, List.contains_eq_mem, List.mem_cons, List.not_mem_nil,
    decide_eq_false_iff_not, not_or] at h ⊢
  tauto

/-- No line of a text has a character that ends a line of code. -/
theorem not_terminator_of_mem_lines {t line : String} (h : line ∈ lines t) :
    ∀ c ∈ line.toList, isLineTerminator c = false :=
  fun _ hc => not_terminator_of_not_boundary (mem_of_mem_lines h hc).2

end Text

/-! ### Comments as they are written -/

/-- The lines of a longer comment, each with its line break. -/
def commentBody (lines : List String) : List Token :=
  lines.flatMap fun line => [.text line, .lineBreak]

/-- The tokens of a comment. -/
def commentTokens : List String → List Token
  | [] => [.text "// "]
  | [line] => [.text ("// " ++ line)]
  | first :: second :: lines =>
    [.text "/*", .lineBreak] ++ commentBody (first :: second :: lines) ++ [.text "*/"]

/-- The text of a comment behind an indentation. -/
def commentText (indentation : List Char) : List String → List Char
  | [] => ['/', '/', ' ']
  | [line] => '/' :: '/' :: ' ' :: line.toList
  | first :: second :: lines => '/' :: '*' :: '\n' ::
    ((first :: second :: lines).flatMap (fun line => indentation ++ line.toList ++ ['\n']) ++
      (indentation ++ ['*', '/']))

theorem Script.runs_comment (lines : List String) (l : Layout) :
    Runs (Script.comment lines) l (commentTokens lines) l := by
  have hbody (lines : List String) :
      Runs (concat (lines.map fun line => text line ++ lineBreak)) l (commentBody lines) l := by
    induction lines with
    | nil => exact ⟨rfl, rfl, rfl⟩
    | cons line lines ih => exact ((runs_text line l).append (runs_lineBreak l)).append ih
  match lines with
  | [] => exact runs_text _ l
  | [line] => exact runs_text _ l
  | first :: second :: lines =>
    exact (((runs_text _ l).append (runs_lineBreak l)).append (hbody _)).append (runs_text _ l)

theorem isWritable_commentTokens (lines : List String) :
    (commentTokens lines).all Token.isWritable = true := by
  match lines with
  | [] | [_] => rfl
  | first :: second :: lines => simp [commentTokens, commentBody, Token.isWritable]

namespace Margin

/-- The lines of a comment, on a margin where the indentation is due before each of them. -/
theorem layout_commentBody (level : Int) (lines : List String) (tokens : List Token) :
    (Margin.layout ⟨level, true⟩ (commentBody lines ++ tokens)).2.toList =
      (lines.flatMap fun line => (spaces level).toList ++ line.toList ++ ['\n']) ++
        (Margin.layout ⟨level, true⟩ tokens).2.toList := by
  induction lines with
  | nil => rfl
  | cons line lines ih =>
    rw [commentBody] at ih
    simp [commentBody, layout_text, layout_lineBreak, due, ih]

theorem layout_comment (m : Margin) (lines : List String) :
    (m.layout (commentTokens lines)).2.toList =
      m.due ++ commentText (spaces m.level).toList lines := by
  match lines with
  | [] => simp [commentTokens, commentText, layout_text]
  | [line] => simp [commentTokens, commentText, layout_text]
  | first :: second :: lines =>
    rw [commentTokens, List.append_assoc, List.cons_append, List.cons_append, List.nil_append,
      layout_text, layout_lineBreak, layout_commentBody, layout_text]
    simp [commentText, due]

end Margin

/-- One line is a comment if it is a line; several are one if the first `*/` is that at the end. -/
theorem Text.isComment_commentText_iff (n : Nat) {lines : List String}
    (h : ∀ line ∈ lines, ∀ c ∈ line.toList, isLineTerminator c = false) :
    IsComment (commentText (List.replicate n ' ') lines) ↔
      lines.length ≤ 1 ∨ ∀ line ∈ lines, ¬ ['*', '/'] <:+: line.toList := by
  match lines, h with
  | [], _ => exact iff_of_true (List.forall_mem_singleton.2 rfl) (.inl (by decide))
  | [line], h =>
    exact iff_of_true (List.forall_mem_cons.2 ⟨rfl, h line (List.mem_cons_self ..)⟩) (.inl (by simp))
  | first :: second :: lines, _ =>
    have hmap := afterClose?_lines n ((first :: second :: lines).map String.toList)
    rw [List.flatMap_map, List.forall_mem_map] at hmap
    rw [commentText, IsComment, afterClose?_cons fun h => absurd h.1 (by decide), hmap]
    simp

/-- A line break cuts a `*/` in two. -/
example : Text.IsComment (commentText [] ["a *", "/ b"]) := rfl

namespace Context

/-- A comment is a statement of its own and needs no terminator. -/
theorem runs_comment (c : Context) (t : String) (l : Layout) :
    Runs (c.stmt (.comment (.ofText t))) l (l.separator.2 ++ commentTokens (Text.lines t))
      { l.separator.1 with needsTerminator := false } := by
  have hseparator : Runs (step .separator) l l.separator.2 l.separator.1 :=
    ⟨rfl, by rw [tokens_step]; exact filterMap_token _, rfl⟩
  have hterminate (m : Layout) :
      Runs (step (.terminate false)) m [] { m with needsTerminator := false } := ⟨rfl, rfl, rfl⟩
  have h := (hseparator.append (Script.runs_comment (Text.lines t) _)).append (hterminate _)
  rwa [List.append_nil] at h

/-- On its own a comment is written as it is anywhere. -/
theorem written_comment (c : Context) (t : String) :
    (c.render (.stmt (.comment (.ofText t)))).fault = none ∧
      (c.render (.stmt (.comment (.ofText t)))).written = commentTokens (Text.lines t) := by
  have hopen : Runs (step .openBody) {} [] {} := ⟨rfl, rfl, rfl⟩
  have hstmt := c.runs_comment t {}
  have hfinish : Runs (step .finish) { firstStatement := false } [] { firstStatement := false } :=
    ⟨rfl, rfl, rfl⟩
  obtain ⟨hfault, htokens, -⟩ := (hopen.append hstmt).append hfinish
  rw [List.append_nil] at htokens
  exact ⟨hfault, by rw [written, outcome_tokens]; exact htokens⟩

/-- A comment on a text is written as the same tokens wherever it stands, after whatever separates it
from the statement before it. On any margin they come to the indentation that is due and a text from
the first slash on, and this text is one comment and nothing else just where the comment has at most one
line or no line has a `*/`. -/
theorem comment_closed_iff (c : Context) (t : String) :
    let comment := Stmt.comment (.ofText t)
    ∃ tokens : List Token,
      ((c.stmt comment).fault = none ∧ ∀ l, (c.stmt comment).tokens l = l.separator.2 ++ tokens) ∧
      c.renderText (.stmt comment) = .ok (Token.plainText tokens) ∧
      ∀ m : Margin, ∃ text : List Char,
        (m.layout tokens).2.toList =
          (if m.pending then (Margin.spaces m.level).toList else []) ++ text ∧
        text.head? = some '/' ∧
        (Text.IsComment text ↔
          (Text.lines t).length ≤ 1 ∨ ∀ line ∈ Text.lines t, ¬ ['*', '/'] <:+: line.toList) := by
  have hruns := c.runs_comment t
  obtain ⟨hfault, hwritten⟩ := c.written_comment t
  refine ⟨commentTokens (Text.lines t), ⟨(hruns {}).fault, fun l => (hruns l).tokens⟩, ?_, fun m =>
    ⟨commentText (Margin.spaces m.level).toList (Text.lines t), m.layout_comment _, ?_, ?_⟩⟩
  · exact plainText_eq_ok.2 ⟨hfault, hwritten ▸ isWritable_commentTokens _, by rw [hwritten]⟩
  · match Text.lines t with
    | [] | [_] | _ :: _ :: _ => rfl
  · rw [Margin.spaces, String.toList_ofList]
    exact Text.isComment_commentText_iff _ fun _ => Text.not_terminator_of_mem_lines

end Context

end Scribe
