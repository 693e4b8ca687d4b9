import ReportTemplate.Proofs.Template.Choosing
import ReportTemplate.Proofs.Template.LoopSearch

/-! What the passes leave literally: tags that open no block and braces around no expression.
A tag that is not matched by depth is put back as it is written, so a text without matched
tags goes through both searches unchanged.
-/

namespace ReportTemplate.Template

namespace Tag

-----------------------------------------------------------------------------------------
-- Pieces and fragments make the text again
-----------------------------------------------------------------------------------------

/-- A text with a first closing mark is cut there, by induction on the text. -/
theorem eq_of_beforeEnd? {text inside : List Char} (h : beforeEnd? text = some inside)
    : ∃ rest, text = inside ++ '%' :: '\x7d' :: rest := by
  induction text using beforeEnd?.induct generalizing inside with
  | case1 => simp [beforeEnd?] at h
  | case2 rest =>
      simp only [beforeEnd?, Option.some.injEq] at h
      exact ⟨rest, by rw [← h]; rfl⟩
  | case3 c text hne ih =>
      rw [beforeEnd? , Option.map_eq_some_iff] at h
      · obtain ⟨tail, ht, rfl⟩ := h
        obtain ⟨rest, rfl⟩ := ih ht
        exact ⟨rest, rfl⟩
      · exact hne

/-- A text with a keyword in front starts with that keyword, by its first word. -/
theorem eq_of_keyword? {text rest : List Char} {kind : TagKind}
    (h : keyword? text = some (kind, rest))
    : text = kind.keyword ++ rest := by
  rw [keyword?_eq, Option.map_eq_some_iff] at h
  obtain ⟨found, hf, he⟩ := h
  obtain ⟨rfl, rfl⟩ := Prod.mk.inj he
  have hk : found.keyword = text.takeWhile Text.isWordChar := by simpa using List.find?_some hf
  rw [hk, List.takeWhile_append_dropWhile]

/-- A tag that is read stands in the text as its source, by the steps of the reader. -/
theorem eq_source_append_of_read? {text : List Char} {tag : Tag} (h : read? text = some tag)
    : ∃ rest, text = tag.source ++ rest ∧ tag.source ≠ [] := by
  unfold read? at h
  split at h
  case h_2 => simp at h
  case h_1 text =>
    simp only [Option.bind_eq_bind, Option.bind_eq_some_iff] at h
    obtain ⟨⟨kind, behind⟩, hk, inside, he, h⟩ := h
    split at h
    · simp at h
    · obtain ⟨rest, hr⟩ := eq_of_beforeEnd? he
      have ht : text
          = text.takeWhile Text.isBlank
            ++ (kind.keyword ++ (inside ++ '%' :: '\x7d' :: rest)) := by
        rw [← hr, ← eq_of_keyword? hk, List.takeWhile_append_dropWhile]
      refine ⟨rest, ?_, ?_⟩ <;> rw [← Option.some.inj h, sourceOf]
      · conv => lhs; rw [ht]
        simp
      · simp

end Tag

namespace Piece

theorem isFaithful_reader : reader.IsFaithful where
  source_char _ := rfl
  eq_append_of_read? h := by
    obtain ⟨tag, hr, rfl⟩ := Option.map_eq_some_iff.mp h
    obtain ⟨rest, he, hne⟩ := Tag.eq_source_append_of_read? hr
    exact ⟨hne, rest, he⟩

/-- The pieces of a text make the text again. -/
theorem flatMap_source_scan (text : List Char) : (scan text).flatMap source = text :=
  Text.TokenReader.flatMap_source_scan isFaithful_reader text

end Piece

namespace Fragment

/-- A text with closing braces on its first line is cut there, by induction on the text. -/
theorem eq_of_inside? {text inside : List Char} (h : inside? text = some inside)
    : ∃ rest, text = inside ++ '\x7d' :: '\x7d' :: rest := by
  induction text using inside?.induct generalizing inside with
  | case1 => simp [inside?] at h
  | case2 rest =>
      simp only [inside?, Option.some.injEq] at h
      exact ⟨rest, by rw [← h]; rfl⟩
  | case3 text hne =>
      rw [inside?] at h
      · simp at h
      · exact hne
  | case4 c text hne hn ih =>
      rw [inside?, if_neg hn, Option.map_eq_some_iff] at h
      · obtain ⟨tail, ht, rfl⟩ := h
        obtain ⟨rest, rfl⟩ := ih ht
        exact ⟨rest, rfl⟩
      · exact hne

/-- Double braces that are read stand in the text as their source, by the cases of the reader. -/
theorem eq_source_append_of_read? {text inside : List Char} (h : read? text = some inside)
    : ∃ rest, text = (braced inside).source ++ rest := by
  unfold read? at h
  split at h
  · obtain ⟨rest, rfl⟩ := eq_of_inside? h
    exact ⟨rest, by simp [source]⟩
  · simp at h

theorem isFaithful_reader : reader.IsFaithful where
  source_char _ := rfl
  eq_append_of_read? h := by
    obtain ⟨inside, hr, rfl⟩ := Option.map_eq_some_iff.mp h
    exact ⟨by simp [reader, source], eq_source_append_of_read? hr⟩

/-- The fragments of a text make the text again. -/
theorem flatMap_source_scan (text : List Char) : (scan text).flatMap source = text :=
  Text.TokenReader.flatMap_source_scan isFaithful_reader text

end Fragment

-----------------------------------------------------------------------------------------
-- Blocks that no tag closes
-----------------------------------------------------------------------------------------

/-- Holds for tags that open a loop: those of the kind with a header that can be read. -/
def Tag.opensLoop (tag : Tag) : Bool :=
  tag.kind = .forStart && (Header.read? tag.argument).isSome

def Tag.closesLoop (tag : Tag) : Bool :=
  tag.kind = .forEnd

/-- Holds for tags that open a choice. -/
def Tag.opensChoice (tag : Tag) : Bool :=
  tag.kind = .ifStart

def Tag.closesChoice (tag : Tag) : Bool :=
  tag.kind = .ifEnd

namespace Piece

/-- Holds when a row of pieces has the end of a block that is open before it, `depth` blocks
inside that block being open too.
-/
def closes (opens ends : Tag → Bool) : Nat → List Piece → Bool
  | _, [] => false
  | depth, .char _ :: pieces => closes opens ends depth pieces
  | depth, .tag found :: pieces =>
      if opens found then closes opens ends (depth + 1) pieces
      else if ends found then
        match depth with
        | 0 => true
        | depth + 1 => closes opens ends depth pieces
      else closes opens ends depth pieces

/-- Holds when no tag that opens a block has an end behind it. -/
def noneCloses (opens ends : Tag → Bool) : List Piece → Bool
  | [] => true
  | .char _ :: pieces => noneCloses opens ends pieces
  | .tag found :: pieces =>
      !(opens found && closes opens ends 0 pieces) && noneCloses opens ends pieces

theorem noneCloses_tail {opens ends : Tag → Bool} {piece : Piece} {pieces : List Piece}
    (h : noneCloses opens ends (piece :: pieces) = true)
    : noneCloses opens ends pieces = true := by
  cases piece with
  | char c => exact h
  | tag found =>
      rw [noneCloses, Bool.and_eq_true] at h
      exact h.2

theorem noneCloses_head {opens ends : Tag → Bool} {found : Tag} {pieces : List Piece}
    (h : noneCloses opens ends (.tag found :: pieces) = true) (ho : opens found = true)
    : closes opens ends 0 pieces = false := by
  rw [noneCloses, Bool.and_eq_true] at h
  simpa [ho] using h.1

end Piece

namespace LoopPart

-----------------------------------------------------------------------------------------
-- Loops without an end stay
-----------------------------------------------------------------------------------------

/-- Parts with the ends that close none of them between them. -/
def Pending.flatten (pending : Pending) : List LoopPart :=
  pending.1 ++ pending.2.flatMap fun (tag, parts) => .piece (.tag tag) :: parts

/-- The text that pending parts leave when their loops are expanded. -/
def Pending.text (registry : Registry) (scope : Scope) (pending : Pending) : List Char :=
  (expandAll registry scope pending.flatten).value

theorem Pending.text_prepend (registry : Registry) (scope : Scope) (parts : List LoopPart)
    (pending : Pending)
    : (pending.prepend parts).text registry scope
      = (expandAll registry scope parts).value ++ pending.text registry scope := by
  simp [text, flatten, prepend, expandAll_append]

/-- A piece in front that opens no loop with an end leaves its source, by the cases of its
kind.
-/
theorem Pending.text_add (registry : Registry) (scope : Scope) {found : Piece}
    {pending : Pending}
    (h : ∀ tag, found = .tag tag → tag.opensLoop = true → pending.2 = [])
    : (pending.add found).text registry scope
      = found.source ++ pending.text registry scope := by
  have hcons : ∀ piece, (pending.cons (.piece piece)).text registry scope
      = piece.source ++ pending.text registry scope := by
    intro piece
    simp [text, flatten, Pending.cons, expandAll, expand]
  cases found with
  | char c => exact hcons (.char c)
  | tag tag =>
      have ht := h tag rfl
      simp only [add]
      cases hk : tag.kind with
      | forEnd => simp [text, flatten, expandAll, expand]
      | forStart =>
          cases hr : Header.read? tag.argument with
          | none => exact hcons (.tag tag)
          | some header =>
              obtain ⟨parts, ends⟩ := pending
              obtain rfl : ends = [] := ht (by simp [Tag.opensLoop, hk, hr])
              simp [openLoop, text, flatten, expandAll, expand, Logged.raise, Piece.source]
      | ifStart => exact hcons (.tag tag)
      | elifBranch => exact hcons (.tag tag)
      | elseBranch => exact hcons (.tag tag)
      | ifEnd => exact hcons (.tag tag)

/-- The end of a loop at some depth is one of the ends left over behind as many others, by
induction on the pieces.
-/
theorem closes_iff_lt_length (depth : Nat) (pieces : List Piece)
    : Piece.closes Tag.opensLoop Tag.closesLoop depth pieces = true
      ↔ depth < (pending pieces).2.length := by
  induction pieces generalizing depth with
  | nil => simp [Piece.closes, pending]
  | cons piece pieces ih =>
      have hp : pending (piece :: pieces) = (pending pieces).add piece := rfl
      rw [hp]
      cases piece with
      | char c => simpa [Piece.closes, Pending.add, Pending.cons] using ih depth
      | tag tag =>
          simp only [Pending.add]
          cases hk : tag.kind with
          | forEnd =>
              cases depth with
              | zero => simp [Piece.closes, Tag.opensLoop, Tag.closesLoop, hk]
              | succ depth =>
                  simpa [Piece.closes, Tag.opensLoop, Tag.closesLoop, hk] using ih depth
          | forStart =>
              cases hr : Header.read? tag.argument with
              | none =>
                  simpa [Piece.closes, Tag.opensLoop, Tag.closesLoop, hk, hr, Pending.cons]
                    using ih depth
              | some header =>
                  -- A loop that opens takes the first end behind it, so the end in question is
                  -- one further on.
                  have hi := ih (depth + 1)
                  generalize pending pieces = behind at hi ⊢
                  obtain ⟨parts, ends⟩ := behind
                  cases ends with
                  | nil =>
                      simpa [Piece.closes, Tag.opensLoop, Tag.closesLoop, hk, hr,
                        Pending.openLoop] using hi
                  | cons first others =>
                      simpa [Piece.closes, Tag.opensLoop, Tag.closesLoop, hk, hr,
                        Pending.openLoop] using hi
          | ifStart =>
              simpa [Piece.closes, Tag.opensLoop, Tag.closesLoop, hk, Pending.cons]
                using ih depth
          | elifBranch =>
              simpa [Piece.closes, Tag.opensLoop, Tag.closesLoop, hk, Pending.cons]
                using ih depth
          | elseBranch =>
              simpa [Piece.closes, Tag.opensLoop, Tag.closesLoop, hk, Pending.cons]
                using ih depth
          | ifEnd =>
              simpa [Piece.closes, Tag.opensLoop, Tag.closesLoop, hk, Pending.cons]
                using ih depth

/-- Pieces in which no loop has an end leave their sources, by induction on the pieces. -/
theorem text_pending_of_noneCloses (registry : Registry) (scope : Scope) {pieces : List Piece}
    (h : Piece.noneCloses Tag.opensLoop Tag.closesLoop pieces = true)
    : (pending pieces).text registry scope = pieces.flatMap Piece.source := by
  induction pieces with
  | nil => simp [pending, Pending.text, Pending.flatten, expandAll]
  | cons piece pieces ih =>
      have hp : pending (piece :: pieces) = (pending pieces).add piece := rfl
      rw [hp, Pending.text_add, ih, List.flatMap_cons]
      · exact Piece.noneCloses_tail h
      · rintro tag rfl ho
        have hc := Piece.noneCloses_head h ho
        have hl := closes_iff_lt_length 0 pieces
        rw [hc] at hl
        simpa using hl

end LoopPart

/-- A text in which no loop has an end is left by the expansion of loops. -/
theorem expandLoops_of_noneCloses (registry : Registry) (scope : Scope) {text : List Char}
    (h : Piece.noneCloses Tag.opensLoop Tag.closesLoop (Piece.scan text) = true)
    : (expandLoops registry scope text).value = text := by
  have ht := LoopPart.text_pending_of_noneCloses registry scope h
  rwa [Piece.flatMap_source_scan] at ht

namespace ChoicePart

-----------------------------------------------------------------------------------------
-- Choices without an end stay
-----------------------------------------------------------------------------------------

/-- Parts with the tags that are part of no choice between them. -/
def Pending.flatten (pending : Pending) : List ChoicePart :=
  pending.1 ++ pending.2.flatMap fun (tag, parts) => .piece (.tag tag) :: parts

def Pending.text (scope : Scope) (pending : Pending) : List Char :=
  (resolveAll scope pending.flatten).value

theorem Pending.text_prepend (scope : Scope) (parts : List ChoicePart) (pending : Pending)
    : (pending.prepend parts).text scope
      = (resolveAll scope parts).value ++ pending.text scope := by
  simp [text, flatten, prepend, resolveAll_append]

/-- No branches are cut off exactly where there is no end, by induction on the branches. -/
theorem cutAtEnd?_eq_none_iff {branches : List (Tag × List ChoicePart)}
    : cutAtEnd? branches = none ↔ ∀ branch ∈ branches, branch.1.kind ≠ .ifEnd := by
  induction branches with
  | nil => simp [cutAtEnd?]
  | cons branch branches ih =>
      obtain ⟨tag, parts⟩ := branch
      by_cases hk : tag.kind = .ifEnd <;> simp [cutAtEnd?, hk, ih]

/-- A piece in front that opens no choice with an end leaves its source, by the cases of its
kind.
-/
theorem Pending.text_add (scope : Scope) {found : Piece} {pending : Pending}
    (h : ∀ tag, found = .tag tag → tag.opensChoice = true
      → ∀ branch ∈ pending.2, branch.1.kind ≠ .ifEnd)
    : (pending.add found).text scope = found.source ++ pending.text scope := by
  have hcons : ∀ piece, (pending.cons (.piece piece)).text scope
      = piece.source ++ pending.text scope := by
    intro piece
    simp [text, flatten, Pending.cons, resolveAll, resolve]
  cases found with
  | char c => exact hcons (.char c)
  | tag tag =>
      have ht := h tag rfl
      simp only [add]
      cases hk : tag.kind with
      | ifStart =>
          have hn := cutAtEnd?_eq_none_iff.mpr (ht (by simp [Tag.opensChoice, hk]))
          simp [openChoice, hn, Pending.cons, text, flatten, resolveAll, resolve, Logged.raise,
            Piece.source]
      | elifBranch => simp [text, flatten, resolveAll, resolve]
      | elseBranch => simp [text, flatten, resolveAll, resolve]
      | ifEnd => simp [text, flatten, resolveAll, resolve]
      | forStart => exact hcons (.tag tag)
      | forEnd => exact hcons (.tag tag)

/-- The number of ends among branches. -/
def countEnds (branches : List (Tag × List ChoicePart)) : Nat :=
  branches.countP fun branch => branch.1.kind = .ifEnd

/-- Cutting at an end takes one end away, by induction on the branches. -/
theorem countEnds_of_cutAtEnd? {branches cut : List (Tag × List ChoicePart)}
    {after : Pending} (h : cutAtEnd? branches = some (cut, after))
    : countEnds branches = countEnds after.2 + 1 := by
  induction branches generalizing cut after with
  | nil => simp [cutAtEnd?] at h
  | cons branch branches ih =>
      obtain ⟨tag, parts⟩ := branch
      by_cases hk : tag.kind = .ifEnd
      · simp only [cutAtEnd?, hk, if_true, Option.some.injEq, Prod.mk.injEq] at h
        simp [countEnds, ← h.2, hk]
      · simp only [cutAtEnd?, hk, if_false, Option.map_eq_some_iff] at h
        obtain ⟨⟨rest, behind⟩, hc, he⟩ := h
        obtain ⟨-, rfl⟩ := Prod.mk.inj he
        simpa [countEnds, hk] using ih hc

/-- The end of a choice at some depth is one of the ends left over behind as many others, by
induction on the pieces.
-/
theorem closes_iff_lt_countEnds (depth : Nat) (pieces : List Piece)
    : Piece.closes Tag.opensChoice Tag.closesChoice depth pieces = true
      ↔ depth < countEnds (pending pieces).2 := by
  induction pieces generalizing depth with
  | nil => simp [Piece.closes, pending, countEnds]
  | cons piece pieces ih =>
      have hp : pending (piece :: pieces) = (pending pieces).add piece := rfl
      rw [hp]
      cases piece with
      | char c => simpa [Piece.closes, Pending.add, Pending.cons] using ih depth
      | tag tag =>
          simp only [Pending.add]
          cases hk : tag.kind with
          | ifEnd =>
              cases depth with
              | zero => simp [Piece.closes, Tag.opensChoice, Tag.closesChoice, hk, countEnds]
              | succ depth =>
                  simpa [Piece.closes, Tag.opensChoice, Tag.closesChoice, hk, countEnds]
                    using ih depth
          | ifStart =>
              have hi := ih (depth + 1)
              cases hc : cutAtEnd? (pending pieces).2 with
              | none =>
                  have hn : countEnds (pending pieces).2 = 0 := by
                    simpa [countEnds, List.countP_eq_zero] using cutAtEnd?_eq_none_iff.mp hc
                  simpa [Piece.closes, Tag.opensChoice, Tag.closesChoice, hk, hc, hn,
                    Pending.openChoice, Pending.cons] using hi
              | some found =>
                  obtain ⟨cut, after⟩ := found
                  have hn := countEnds_of_cutAtEnd? hc
                  simpa [Piece.closes, Tag.opensChoice, Tag.closesChoice, hk, hc, hn,
                    Pending.openChoice, Pending.cons] using hi
          | elifBranch =>
              simpa [Piece.closes, Tag.opensChoice, Tag.closesChoice, hk, countEnds]
                using ih depth
          | elseBranch =>
              simpa [Piece.closes, Tag.opensChoice, Tag.closesChoice, hk, countEnds]
                using ih depth
          | forStart =>
              simpa [Piece.closes, Tag.opensChoice, Tag.closesChoice, hk, Pending.cons]
                using ih depth
          | forEnd =>
              simpa [Piece.closes, Tag.opensChoice, Tag.closesChoice, hk, Pending.cons]
                using ih depth

/-- Pieces in which no choice has an end leave their sources, by induction on the pieces. -/
theorem text_pending_of_noneCloses (scope : Scope) {pieces : List Piece}
    (h : Piece.noneCloses Tag.opensChoice Tag.closesChoice pieces = true)
    : (pending pieces).text scope = pieces.flatMap Piece.source := by
  induction pieces with
  | nil => simp [pending, Pending.text, Pending.flatten, resolveAll]
  | cons piece pieces ih =>
      have hp : pending (piece :: pieces) = (pending pieces).add piece := rfl
      rw [hp, Pending.text_add, ih, List.flatMap_cons]
      · exact Piece.noneCloses_tail h
      · rintro tag rfl ho
        have hc := Piece.noneCloses_head h ho
        have hl := closes_iff_lt_countEnds 0 pieces
        rw [hc] at hl
        simpa [countEnds, List.countP_eq_zero] using hl

end ChoicePart

/-- A text in which no choice has an end is left by the resolution of choices. -/
theorem resolveChoices_of_noneCloses (scope : Scope) {text : List Char}
    (h : Piece.noneCloses Tag.opensChoice Tag.closesChoice (Piece.scan text) = true)
    : (resolveChoices scope text).value = text := by
  have ht := ChoicePart.text_pending_of_noneCloses scope h
  rwa [Piece.flatMap_source_scan] at ht

/-- A text in which no double braces are around an expression is left by interpolation. -/
theorem interpolate_of_unread (registry : Registry) (scope : Scope) {text : List Char}
    (h : ∀ inside, .braced inside ∈ Fragment.scan text → Expression.read? inside = none)
    : (interpolate registry scope text).value = text := by
  have hr : ∀ fragment ∈ Fragment.scan text,
      (Fragment.render registry scope fragment).value = fragment.source := by
    intro fragment hm
    cases fragment with
    | char c => rfl
    | braced inside => simp [Fragment.render, h inside hm]
  rw [interpolate, Logged.concat, List.flatMap_map, List.flatMap_def, List.map_congr_left hr,
    ← List.flatMap_def, Fragment.flatMap_source_scan]

end ReportTemplate.Template
