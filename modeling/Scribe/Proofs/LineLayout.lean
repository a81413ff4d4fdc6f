import Scribe.Proofs.Indentation

/-!
# Plain text, line by line

A margin is lazy: the indentation of a line is written with the first text on it, at the level of that
moment. `Margin.line` lays out a line that is known as a whole, and `Token.plainText_by_lines` says that
the plain text of any tokens is their lines, laid out one by one, with line breaks between them. A line
comes to no more than its texts and the level before the first of them, so it does not matter what moves
the margin behind that text, nor on a line without one where all comes back to the same level.
-/

namespace Scribe

namespace Token

/-- The text that a token puts on its line, if it puts any there. -/
def piece? : Token → Option String
  | .text s => some s
  | .stray value => some value.plain
  | .declaration name _ => some name.plain
  | .reference name _ _ => some name.plain
  | .lineBreak | .indent | .outdent => none

/-- Whether a token moves the margin and does nothing else. -/
def isMove : Token → Bool
  | .indent | .outdent => true
  | _ => false

/-- The texts on a line, in order. -/
def pieces (line : List Token) : List String := line.filterMap piece?

/-- What stands on a line before the first text. -/
def lead (line : List Token) : List Token := line.takeWhile (·.piece?.isNone)

variable {t : Token} {s : String} {ts : List Token}

theorem shift_of_piece (h : t.piece? = some s) : t.shift = 0 := by
  cases t with
  | lineBreak | indent | outdent => cases h
  | _ => rfl

theorem piece?_of_isMove (h : t.isMove = true) : t.piece? = none := by
  cases t with
  | indent | outdent => rfl
  | _ => cases h

theorem lineBreak_not_mem_of_isMove (h : ∀ t ∈ ts, t.isMove = true) : .lineBreak ∉ ts :=
  fun hin => Bool.false_ne_true (h _ hin)

theorem pieces_of_isMove (h : ∀ t ∈ ts, t.isMove = true) : pieces ts = [] :=
  List.filterMap_eq_nil_iff.2 fun t ht => piece?_of_isMove (h t ht)

theorem pieces_cons_some (h : t.piece? = some s) (ts : List Token) :
    pieces (t :: ts) = s :: pieces ts := List.filterMap_cons_some h

theorem pieces_cons_none (h : t.piece? = none) (ts : List Token) : pieces (t :: ts) = pieces ts :=
  List.filterMap_cons_none h

theorem lead_cons_some (h : t.piece? = some s) (ts : List Token) : lead (t :: ts) = [] :=
  List.takeWhile_cons_of_neg (by simp [h])

theorem lead_cons_none (h : t.piece? = none) (ts : List Token) : lead (t :: ts) = t :: lead ts :=
  List.takeWhile_cons_of_pos (by simp [h])

/-- Moves have no text. -/
theorem pieces_filter (ts : List Token) : pieces (ts.filter (!·.isMove)) = pieces ts := by
  induction ts with
  | nil => rfl
  | cons t ts ih =>
    cases hmove : t.isMove with
    | true =>
      rw [List.filter_cons_of_neg (by simp [hmove]), ih, pieces_cons_none (piece?_of_isMove hmove)]
    | false =>
      rw [List.filter_cons_of_pos (by simp [hmove])]
      cases hpiece : t.piece? with
      | some s => rw [pieces_cons_some hpiece, pieces_cons_some hpiece, ih]
      | none => rw [pieces_cons_none hpiece, pieces_cons_none hpiece, ih]

end Token

namespace Margin

open Token (piece? pieces lead)

/-- A line of tokens that opens at the margin: nothing if there is no text on it, and otherwise its texts,
after four spaces for each level at the first of them if an indentation is due. -/
def line (m : Margin) (tokens : List Token) : String :=
  match pieces tokens with
  | [] => ""
  | texts =>
    (if m.pending then spaces (m.level + Token.level (lead tokens)) else "") ++ String.join texts

variable {t : Token} {s : String} {ts : List Token}

theorem put_piece (h : t.piece? = some s) (m : Margin) : m.put t = m.write s := by
  cases t <;> cases h <;> rfl

/-- What puts no text on its line, and does not end it, is a move. -/
theorem put_move (h : t.piece? = none) (hbreak : .lineBreak ≠ t) (m : Margin) :
    m.put t = ({ m with level := m.level + t.shift }, "") := by
  cases t with
  | lineBreak => exact absurd rfl hbreak
  | indent | outdent => rfl
  | _ => cases h

/-- On a line that has begun, tokens add their texts and no indentation, wherever they move the margin. -/
theorem layout_begun (h : .lineBreak ∉ ts) (level : Int) :
    Margin.layout ⟨level, false⟩ ts =
      (⟨level + Token.level ts, false⟩, String.join (pieces ts)) := by
  induction ts generalizing level with
  | nil => simp [pieces]
  | cons t ts ih =>
    obtain ⟨hbreak, hrest⟩ := not_or.1 (mt List.mem_cons.2 h)
    cases hpiece : t.piece? with
    | some s =>
      rw [layout_cons, put_piece hpiece, write, if_neg Bool.false_ne_true, ih hrest, Token.level_cons,
        Token.shift_of_piece hpiece, Int.zero_add, Token.pieces_cons_some hpiece, String.join_cons]
    | none =>
      rw [layout_cons, put_move hpiece hbreak, ih hrest, Token.level_cons, Int.add_assoc,
        Token.pieces_cons_none hpiece, String.empty_append]

/-- From a text on, what comes to the line is the texts, and the line has begun. -/
theorem layout_from_piece (h : t.piece? = some s) (hts : .lineBreak ∉ ts) (m : Margin) :
    m.layout (t :: ts) =
      (⟨m.level + Token.level (t :: ts), false⟩, (m.write s).2 ++ String.join (pieces ts)) := by
  have hbegun : (m.write s).1 = ⟨m.level, false⟩ := by
    obtain ⟨level, pending⟩ := m
    cases pending <;> rfl
  rw [layout_cons, put_piece h, hbegun, layout_begun hts, Token.level_cons, Token.shift_of_piece h,
    Int.zero_add]

/-- Tokens on one line come to that line, and move the margin. -/
theorem layout_one_line (h : .lineBreak ∉ ts) (m : Margin) :
    m.layout ts = (⟨m.level + Token.level ts, m.pending && (pieces ts).isEmpty⟩, m.line ts) := by
  induction ts generalizing m with
  | nil => simp [pieces, line]
  | cons t ts ih =>
    obtain ⟨hbreak, hrest⟩ := not_or.1 (mt List.mem_cons.2 h)
    cases hpiece : t.piece? with
    | some s =>
      rw [layout_from_piece hpiece hrest, line, Token.pieces_cons_some hpiece,
        Token.lead_cons_some hpiece, write]
      cases m.pending <;> simp [String.append_assoc]
    | none =>
      rw [layout_cons, put_move hpiece hbreak, ih hrest, line, line, Token.pieces_cons_none hpiece,
        Token.lead_cons_none hpiece, Token.level_cons, Token.level_cons, Int.add_assoc, Int.add_assoc,
        String.empty_append]

/-- Moves write nothing. -/
theorem layout_moves (h : ∀ t ∈ ts, t.isMove = true) (m : Margin) :
    m.layout ts = ({ m with level := m.level + Token.level ts }, "") := by
  rw [layout_one_line (Token.lineBreak_not_mem_of_isMove h), line, Token.pieces_of_isMove h,
    List.isEmpty_nil, Bool.and_true]

/-- Lines, one after the other. Every line but the first opens where an indentation is due. -/
theorem layout_lines (m : Margin) (ts : List Token) :
    (m.layout ts).2 = "\n".intercalate ((ts.splitOn .lineBreak).mapIdx fun i tokens =>
      Margin.line ⟨m.level + Token.level ((ts.splitOn .lineBreak).take i).flatten,
        m.pending || decide (0 < i)⟩ tokens) := by
  by_cases hbreak : .lineBreak ∈ ts
  · obtain ⟨first, rest, hts, hfirst⟩ := List.eq_append_cons_of_mem hbreak
    have hlength : rest.length < ts.length := by
      rw [hts, List.length_append, List.length_cons]
      omega
    -- Behind the break the margin stands where the first line has left it, and an indentation is due.
    have hrest := layout_lines ⟨m.level + Token.level first, true⟩ rest
    rw [hts, List.splitOn_append_cons_self_of_not_mem hfirst, List.mapIdx_cons,
      String.intercalate_cons_of_ne_nil (by simp), layout_append, layout_one_line hfirst, layout_cons]
    simp only [put]
    rw [hrest]
    simp [Int.add_assoc, String.append_assoc]
  · rw [List.splitOn_eq_singleton hbreak, layout_one_line hbreak]
    simp
termination_by ts.length

end Margin

namespace Token

/-- The plain text of tokens is their lines with line breaks between them, each laid out by itself from the
level that the tokens before it leave open, with an indentation on every line but the first. So moves
behind the first text of a line are nothing to that line, and move only what comes after it; and moves that
cancel out, as on a line without a text, are nothing to any. -/
theorem plainText_by_lines (tokens : List Token) :
    (plainText tokens = "
".intercalate ((tokens.splitOn .lineBreak).mapIdx fun i line =>
      Margin.line ⟨level ((tokens.splitOn .lineBreak).take i).flatten, decide (0 < i)⟩ line)) ∧
    (∀ before t later rest, tokens = before ++ t :: later ++ rest → t.piece? ≠ none →
      .lineBreak ∉ later → plainText tokens =
        plainText (before ++ t :: later.filter (!·.isMove)) ++
          (Margin.layout ⟨level (before ++ t :: later), false⟩ rest).2) ∧
    (∀ before moves after, tokens = before ++ moves ++ after → (∀ t ∈ moves, t.isMove = true) →
      level moves = 0 → plainText tokens = plainText (before ++ after)) := by
  refine ⟨?_, ?_, ?_⟩
  · simp [plainText, Margin.layout_lines]
  · rintro before t later rest rfl hpiece hlater
    obtain ⟨s, hs⟩ := Option.ne_none_iff_exists'.1 hpiece
    have hkept : .lineBreak ∉ later.filter (!·.isMove) := fun hin => hlater (List.mem_filter.1 hin).1
    have hmargin : (Margin.layout {} (before ++ t :: later)).1 =
        ⟨level (before ++ t :: later), false⟩ := by
      rw [Margin.layout_append, Margin.layout_from_piece hs hlater, Margin.layout_level, level_append,
        Int.zero_add]
    have htext : plainText (before ++ t :: later) =
        plainText (before ++ t :: later.filter (!·.isMove)) := by
      rw [plainText, plainText, Margin.layout_append, Margin.layout_append,
        Margin.layout_from_piece hs hlater, Margin.layout_from_piece hs hkept, pieces_filter]
    rw [← htext, plainText, Margin.layout_append, hmargin, plainText]
  · rintro before moves after rfl hmoves hlevel
    rw [plainText, plainText, Margin.layout_append, Margin.layout_append, Margin.layout_append,
      Margin.layout_moves hmoves, hlevel, Int.add_zero, String.append_empty]

/-- A line that is left of the first column, a line without a text, and a line on which the margin moves
behind its first text. -/
theorem plainText_by_lines_below_zero :
    let opening : List Token := [.text "a", .outdent, .lineBreak, .text "b", .lineBreak]
    let blank : List Token := [.indent, .outdent]
    let begun : List Token := [.lineBreak, .indent, .indent, .declaration (.text "c") none]
    let rest : List Token := [.lineBreak, .reference (.text "e") .null none]
    let tokens := opening ++ blank ++ (begun ++ [.indent, .text "d"] ++ rest)
    plainText tokens = "a\nb\n\n    cd\n        e" ∧
      plainText (opening ++ (begun ++ [.indent, .text "d"] ++ rest)) = plainText tokens ∧
      plainText (opening ++ blank ++ begun ++ [.text "d"]) ++
        (Margin.layout ⟨2, false⟩ rest).2 = plainText tokens := by
  intro opening blank begun rest tokens
  have hlines := (plainText_by_lines tokens).1
  have hbegun := (plainText_by_lines tokens).2.1
    (opening ++ blank ++ [.lineBreak, .indent, .indent]) (.declaration (.text "c") none)
    [.indent, .text "d"] rest rfl nofun (by decide)
  have hblank := (plainText_by_lines tokens).2.2 opening blank (begun ++ [.indent, .text "d"] ++ rest) rfl
    (by decide) rfl
  exact ⟨hlines.trans (by decide), hblank.symm, hbegun.symm⟩

end Token

end Scribe
