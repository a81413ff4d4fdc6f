import Scribe.Proofs.Neutral

/-!
# Blocks in lines

A block with more items than one line holds is written on lines of its own. Its items come one after
the other, and what stands before an item depends on its index alone; `Context.block_in_lines` says
that this comes to lines of `blockWidth` items: `chunks` cuts the items into lines, the items of a
line have `, ` between them, and the lines have `,` and a line break between them.
-/

namespace Scribe

open Script

/-! ### Chunks of a list -/

section

variable {α : Type}

/-- Chunks of `width` consecutive items, of which the last may be shorter. -/
def chunks (width : Nat) (items : List α) : List (List α) :=
  if 0 < width ∧ width < items.length then items.take width :: chunks width (items.drop width)
  else [items]
termination_by items.length
decreasing_by
  rw [List.length_drop]
  omega

variable {width : Nat} {items : List α}

theorem chunks_of_lt (hw : 0 < width) (h : width < items.length) :
    chunks width items = items.take width :: chunks width (items.drop width) := by
  rw [chunks, if_pos ⟨hw, h⟩]

theorem chunks_of_le (h : items.length ≤ width) : chunks width items = [items] := by
  rw [chunks, if_neg fun hlt => Nat.not_lt.2 h hlt.2]

theorem chunks_ne_nil (width : Nat) (items : List α) : chunks width items ≠ [] := by
  rw [chunks]
  split_ifs
  · exact List.cons_ne_nil _ _
  · exact List.cons_ne_nil _ _

/-- What holds of lists of one chunk, and of a list if it holds of what follows its first chunk,
holds of all lists. -/
theorem chunks_induction {motive : List α → Prop} (hw : 0 < width)
    (last : ∀ items, items.length ≤ width → motive items)
    (more : ∀ items, width < items.length → motive (items.drop width) → motive items)
    (items : List α) : motive items := by
  induction items using chunks.induct width with
  | case1 items h ih => exact more items h.2 ih
  | case2 items h => exact last items (Nat.not_lt.1 fun hlt => h ⟨hw, hlt⟩)

/-- No item is lost, and none moves. -/
theorem flatten_chunks (hw : 0 < width) (items : List α) : (chunks width items).flatten = items := by
  induction items using chunks_induction hw with
  | last items h => rw [chunks_of_le h, List.flatten_singleton]
  | more items h ih => rw [chunks_of_lt hw h, List.flatten_cons, ih, List.take_append_drop]

/-- All chunks but the last are full. -/
theorem length_of_mem_dropLast_chunks (hw : 0 < width) (items : List α) :
    ∀ chunk ∈ (chunks width items).dropLast, chunk.length = width := by
  induction items using chunks_induction hw with
  | last items h =>
    rw [chunks_of_le h]
    exact List.forall_mem_nil _
  | more items h ih =>
    rw [chunks_of_lt hw h, List.dropLast_cons_of_ne_nil (chunks_ne_nil _ _),
      List.forall_mem_cons]
    exact ⟨List.length_take_of_le (Nat.le_of_lt h), ih⟩

/-- No chunk is empty or too long. -/
theorem length_of_mem_chunks (hw : 0 < width) {items : List α} (hne : items ≠ []) :
    ∀ chunk ∈ chunks width items, chunk ≠ [] ∧ chunk.length ≤ width := by
  induction items using chunks_induction hw with
  | last items h =>
    rw [chunks_of_le h, List.forall_mem_singleton]
    exact ⟨hne, h⟩
  | more items h ih =>
    have hrest : items.drop width ≠ [] := List.ne_nil_of_length_pos (by rw [List.length_drop]; omega)
    have hfirst : (items.take width).length = width := List.length_take_of_le (Nat.le_of_lt h)
    rw [chunks_of_lt hw h, List.forall_mem_cons]
    exact ⟨⟨List.ne_nil_of_length_pos (by rwa [hfirst]), Nat.le_of_eq hfirst⟩, ih hrest⟩

end

/-! ### Items one after the other -/

namespace Block

/-- What stands before the item with `index` items before it. -/
def separator (index : Nat) : List Token :=
  if index = 0 then []
  else if index % blockWidth = 0 then [.text ",", .lineBreak]
  else [.text ", "]

/-- The items from `index` on, each with its separator before it. -/
def run (index : Nat) : List (List Token) → List Token
  | [] => []
  | item :: rest => separator index ++ item ++ run (index + 1) rest

/-- The items of one line. -/
def line (items : List (List Token)) : List Token := [.text ", "].intercalate items

theorem run_append (index : Nat) (a b : List (List Token)) :
    run index (a ++ b) = run index a ++ run (index + a.length) b := by
  induction a generalizing index with
  | nil => rfl
  | cons item a ih =>
    rw [List.cons_append, run, run, ih, List.length_cons, Nat.add_right_comm, Nat.add_assoc index]
    simp only [List.append_assoc]

/-- Items that fit what is left of a line. -/
theorem run_line {index : Nat} {items : List (List Token)} (hne : items ≠ [])
    (h : index % blockWidth + items.length ≤ blockWidth) :
    run index items = separator index ++ line items := by
  induction items generalizing index with
  | nil => exact absurd rfl hne
  | cons item rest ih =>
    cases rest with
    | nil => simp [run, line]
    | cons next rest =>
      simp only [List.length_cons, blockWidth] at h
      have hnext : (index + 1) % blockWidth = index % blockWidth + 1 := by
        simp only [blockWidth]
        omega
      have hcomma : separator (index + 1) = [.text ", "] := by
        rw [separator, if_neg (Nat.succ_ne_zero _), if_neg (by rw [hnext]; omega)]
      have hrest : (index + 1) % blockWidth + (next :: rest).length ≤ blockWidth := by
        rw [hnext, List.length_cons]
        simp only [blockWidth]
        omega
      rw [run, ih (List.cons_ne_nil _ _) hrest, hcomma, line, line, List.intercalate_cons_cons]
      simp only [List.append_assoc]

/-- Items from the start of a line on are lines. -/
theorem run_lines {α : Type} (f : α → List Token) (items : List α) {index : Nat}
    (hne : items ≠ []) (h : index % blockWidth = 0) :
    run index (items.map f) = separator index ++ [.text ",", .lineBreak].intercalate
      ((chunks blockWidth items).map fun chunk => line (chunk.map f)) := by
  have hwidth : 0 < blockWidth := by decide
  induction items using chunks_induction hwidth generalizing index with
  | last items hlast =>
    rw [chunks_of_le hlast, List.map_singleton, List.intercalate_singleton]
    refine run_line (by simpa using hne) ?_
    rwa [h, Nat.zero_add, List.length_map]
  | more items hmore ih =>
    have hlength : (items.take blockWidth).length = blockWidth :=
      List.length_take_of_le (Nat.le_of_lt hmore)
    have hfirst : run index ((items.take blockWidth).map f) =
        separator index ++ line ((items.take blockWidth).map f) := by
      refine run_line (List.ne_nil_of_length_pos ?_) (Nat.le_of_eq ?_)
      · rw [List.length_map, hlength]
        decide
      · rw [h, Nat.zero_add, List.length_map, hlength]
    have hnext : separator (index + blockWidth) = [.text ",", .lineBreak] := by
      rw [separator, if_neg (by simp only [blockWidth]; omega), Nat.add_mod_right, if_pos h]
    have hrest : items.drop blockWidth ≠ [] :=
      List.ne_nil_of_length_pos (by rw [List.length_drop]; omega)
    obtain ⟨second, others, hchunks⟩ :=
      List.exists_cons_of_ne_nil (chunks_ne_nil blockWidth (items.drop blockWidth))
    have hstart : (index + blockWidth) % blockWidth = 0 := by rw [Nat.add_mod_right, h]
    have hdrop := ih hrest hstart
    rw [chunks_of_lt hwidth hmore]
    conv_lhs => rw [← List.take_append_drop blockWidth items]
    rw [List.map_append, run_append, hfirst, List.length_map, hlength, hdrop, hnext, hchunks,
      List.map_cons, List.map_cons, List.map_cons, List.intercalate_cons_cons]
    simp only [List.append_assoc]

end Block

namespace Script

variable {items : List Script}

/-- The separator that a block has before an item is what `Block.separator` says. -/
theorem blockItems_cons (index : Nat) (s : Script) (rest : List Script) :
    ∃ before : Script, blockItems index (s :: rest) = before ++ s ++ blockItems (index + 1) rest ∧
      Neutral before ∧ before.fault = none ∧ before.written = Block.separator index := by
  refine ⟨_, rfl, ?_⟩
  unfold Block.separator
  split_ifs
  · exact ⟨.empty, rfl, rfl⟩
  · exact ⟨Fits.law (.append (.text ",") .lineBreak), rfl, rfl⟩
  · exact ⟨.text _, rfl, rfl⟩

theorem written_blockItems (index : Nat) (h : ∀ s ∈ items, Inline s)
    (hf : ∀ s ∈ items, s.fault = none) : (blockItems index items).fault = none ∧
      (blockItems index items).written = Block.run index (items.map written) := by
  induction items generalizing index with
  | nil => exact ⟨rfl, rfl⟩
  | cons s rest ih =>
    obtain ⟨hs, hrest⟩ := List.forall_mem_cons.1 h
    obtain ⟨hfs, hfrest⟩ := List.forall_mem_cons.1 hf
    obtain ⟨hfault, hwritten⟩ := ih (index + 1) hrest hfrest
    obtain ⟨before, hitems, hneutral, hfbefore, hbefore⟩ := blockItems_cons index s rest
    have hfirst : (before ++ s).fault = none := fault_append_eq_none.2 ⟨hfbefore, hfs⟩
    rw [hitems]
    refine ⟨fault_append_eq_none.2 ⟨hfirst, hfault⟩, ?_⟩
    rw [(hneutral.append hs.law).written_append (Fits.blockItems _ hrest).law hfirst,
      hneutral.written_append hs.law hfbefore, hbefore, hwritten, List.map_cons, Block.run]

/-- The lines of a block that is too long for one. -/
theorem written_block (h : ∀ s ∈ items, Inline s) (hf : ∀ s ∈ items, s.fault = none) :
    (block items).fault = none ∧ (block items).written =
      if items.length ≤ blockWidth then
        .text "[" :: Block.run 0 (items.map written) ++ [.text "]"]
      else [.text "[", .indent, .lineBreak] ++ Block.run 0 (items.map written) ++
        [.outdent, .lineBreak, .text "]"] := by
  obtain ⟨hfault, hwritten⟩ := written_blockItems 0 h hf
  have hneutral : Neutral (blockItems 0 items) := (Fits.blockItems 0 h).law
  obtain ⟨keeps, hruns⟩ := hneutral.runs hfault
  rw [hwritten] at hruns
  unfold block
  by_cases hlong : blockWidth < items.length
  · rw [if_pos hlong, if_neg (Nat.not_le.2 hlong)]
    have hrun := ((((((runs_text "[" {}).append (runs_token .indent _)).append (runs_lineBreak _)).append
      (hruns (Layout.move {} .indent) (by decide))).append (runs_token .outdent _)).append
      (runs_lineBreak _)).append (runs_text "]" _)
    refine ⟨hrun.fault, ?_⟩
    rw [written, outcome_tokens, hrun.tokens]
    simp
  · rw [if_neg hlong, if_pos (Nat.not_lt.1 hlong)]
    have hrun := ((runs_text "[" {}).append (hruns {} (by decide))).append (runs_text "]" _)
    refine ⟨hrun.fault, ?_⟩
    rw [written, outcome_tokens, hrun.tokens]
    rfl

end Script

namespace Context

variable (c : Context)

/-- The items of whatever can be iterated, each as an expression. -/
theorem exprItems_of_items {v : Value} {elements : List Value} (h : v.items = .ok elements) :
    c.exprItems v = elements.map c.exprSlot := by
  cases v with
  | list items =>
    cases h
    exact c.exprSlots_eq elements
  | scalar s =>
    cases s with
    | text t =>
      cases h
      simp only [exprItems, Value.strays, Value.items, List.map_map]
      rfl
    | bytes b =>
      cases h
      simp only [exprItems, Value.strays, Value.items, List.map_map]
      rfl
    | _ => cases h
  | _ => cases h

/-- The items of a line, with commas between them. -/
def blockLine (items : List Value) : List Token :=
  Block.line (items.map fun v => (c.exprSlot v).written)

/-- **Blocks in lines.** A block whose items do not fault does not fault either. It writes its items on
one line if they fit one, and otherwise in chunks of `blockWidth`, each on a line of its own and one
level in. Each item is written as it is on its own, on whatever layout the block is. -/
theorem block_in_lines {items : Value} {elements : List Value} (hitems : items.items = .ok elements)
    (hf : ∀ v ∈ elements, (c.exprSlot v).fault = none) :
    (c.expr (.block items)).fault = none ∧
    (∀ l : Layout, 0 ≤ l.depth → (c.expr (.block items)).tokens l =
      if elements.length ≤ 16 then .text "[" :: c.blockLine elements ++ [.text "]"]
      else [.text "[", .indent, .lineBreak] ++
        [.text ",", .lineBreak].intercalate ((chunks 16 elements).map c.blockLine) ++
        [.outdent, .lineBreak, .text "]"]) ∧
    (chunks 16 elements).flatten = elements ∧
    (elements ≠ [] → ∀ chunk ∈ chunks 16 elements, chunk ≠ [] ∧ chunk.length ≤ 16) ∧
    ∀ chunk ∈ (chunks 16 elements).dropLast, chunk.length = 16 := by
  have hinline : ∀ s ∈ elements.map c.exprSlot, Inline s :=
    List.forall_mem_map.2 fun v _ => c.exprSlot_fits v
  obtain ⟨hfault, hwritten⟩ := written_block hinline (List.forall_mem_map.2 hf)
  rw [expr, c.exprItems_of_items hitems]
  refine ⟨hfault, fun l hl => ?_, flatten_chunks (by decide) elements,
    length_of_mem_chunks (by decide),
    length_of_mem_dropLast_chunks (by decide) elements⟩
  obtain ⟨keeps, hruns⟩ := Neutral.runs (Fits.block hinline).law hfault
  rw [(hruns l hl).tokens, hwritten, List.length_map, List.map_map]
  by_cases hne : elements = []
  · subst hne
    rfl
  have hrun := Block.run_lines (written ∘ c.exprSlot) elements hne (Nat.zero_mod blockWidth)
  have hwidth : blockWidth = 16 := rfl
  rw [hrun, hwidth]
  by_cases hshort : elements.length ≤ 16
  · rw [if_pos hshort, if_pos hshort, chunks_of_le hshort, List.map_singleton,
      List.intercalate_singleton]
    rfl
  · rw [if_neg hshort, if_neg hshort]
    rfl

/-- A block of seventeen items, of which the first is such a block as well. -/
theorem block_in_lines_nested :
    let c : Context := { program := {} }
    let inner : Value := .expr (.block (.list (List.replicate 17 (.expr .this))))
    let first := inner :: List.replicate 15 (.expr .base)
    (∀ v ∈ first ++ [.expr .base], (c.exprSlot v).fault = none) ∧
      (c.exprSlot inner).fault = none ∧
      (c.expr (.block (.list (first ++ [.expr .base])))).tokens {} =
        [.text "[", .indent, .lineBreak] ++ c.blockLine first ++ [.text ",", .lineBreak] ++
          c.blockLine [.expr .base] ++ [.outdent, .lineBreak, .text "]"] := by
  intro c inner first
  have hitems (vs : List Value) : (Value.list vs).items = .ok vs := rfl
  have hinner : (c.exprSlot inner).fault = none :=
    (c.block_in_lines (hitems _) fun v hv => by rw [List.eq_of_mem_replicate hv]; rfl).1
  have hf : ∀ v ∈ first ++ [.expr .base], (c.exprSlot v).fault = none := by
    intro v hv
    rcases List.mem_append.1 hv with hv | hv
    · rcases List.mem_cons.1 hv with rfl | hv
      · exact hinner
      · rw [List.eq_of_mem_replicate hv]
        rfl
    · rw [List.mem_singleton.1 hv]
      rfl
  obtain ⟨-, htokens, -⟩ := c.block_in_lines (hitems _) hf
  refine ⟨hf, hinner, ?_⟩
  rw [htokens {} (by decide), if_neg (by decide), chunks_of_lt (by decide) (by decide),
    chunks_of_le (by decide)]
  simp [first, List.intercalate_cons_cons]

end Context

end Scribe
