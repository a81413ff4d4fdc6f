/-!
# Lines of a text

A line ends at a line feed, a carriage return, the two together, or at one of the other characters
that count as line boundaries. No empty line follows a boundary at the end of the text.
-/

namespace Scribe

namespace Text

/-- Line feed, vertical tab, form feed, carriage return, the information separators, next line, and
the line and paragraph separators. -/
def isLineBoundary (c : Char) : Bool :=
  [0x0A, 0x0B, 0x0C, 0x0D, 0x1C, 0x1D, 0x1E, 0x85, 0x2028, 0x2029].contains c.toNat

/-- The lines of `text`, where `line` holds the characters of the current line in reverse. -/
def linesFrom (line : List Char) : List Char → List (List Char)
  | [] => if line.isEmpty then [] else [line.reverse]
  | c :: rest =>
    if c = '\r' then
      match rest with
      | '\n' :: rest => line.reverse :: linesFrom [] rest
      | rest => line.reverse :: linesFrom [] rest
    else if isLineBoundary c then line.reverse :: linesFrom [] rest
    else linesFrom (c :: line) rest

def lines (text : String) : List String := (linesFrom [] text.toList).map String.ofList

/-- The characters of a line are those of the text that end no line. -/
theorem mem_of_mem_linesFrom {line rest found : List Char} {c : Char}
    (h : found ∈ linesFrom line rest) (hc : c ∈ found) :
    c ∈ line ∨ c ∈ rest ∧ isLineBoundary c = false := by
  fun_induction linesFrom line rest with
  | case1 => cases h
  | case2 line =>
    obtain rfl := List.mem_singleton.1 h
    exact .inl (List.mem_reverse.1 hc)
  | case3 line rest ih | case4 line rest _ ih | case5 line _ rest _ _ ih =>
    rcases List.mem_cons.1 h with rfl | h
    · exact .inl (List.mem_reverse.1 hc)
    · exact (ih h).imp nofun fun ⟨hrest, hend⟩ => ⟨by simp [hrest], hend⟩
  | case6 line d rest _ hd ih =>
    rcases ih h with hline | ⟨hrest, hend⟩
    · exact (List.mem_cons.1 hline).elim
        (fun heq => .inr ⟨by simp [heq], by simpa [heq] using hd⟩) .inl
    · exact .inr ⟨List.mem_cons_of_mem _ hrest, hend⟩

theorem mem_of_mem_lines {text line : String} {c : Char} (h : line ∈ lines text)
    (hc : c ∈ line.toList) : c ∈ text.toList ∧ isLineBoundary c = false := by
  obtain ⟨found, hfound, rfl⟩ := List.mem_map.1 h
  rw [String.toList_ofList] at hc
  exact (mem_of_mem_linesFrom hfound hc).resolve_left nofun

end Text

end Scribe
