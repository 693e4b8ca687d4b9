import Mathlib.Data.List.Forall2
import ReportTemplate.Proofs.Template.BlockBalance

/-! Blocks are matched by balance.
The searches for loops and choices go through the pieces from behind and leave what is not matched
yet to the pieces in front. What they make of an opening tag is the block that the counter of open
blocks finds from there.
-/

namespace ReportTemplate.Template

namespace Piece

/-- Only tags do something to blocks. -/
theorem exists_tag_of_roleBy {role : Tag → Role} {piece : Piece} {which : Role}
    (h : piece.roleBy role = which) (hw : which ≠ .other)
    : ∃ tag, piece = .tag tag := by
  cases piece with
  | char c => exact absurd h.symm hw
  | tag tag => exact ⟨tag, rfl⟩

theorem add_length_cons (place : Nat) (piece : Piece) (inside : List Piece)
    : place + (piece :: inside).length = place + 1 + inside.length := by
  rw [List.length_cons]
  omega

end Piece

namespace LoopPart

-----------------------------------------------------------------------------------------
-- The search for loops
-----------------------------------------------------------------------------------------

theorem opensLoop_iff (tag : Tag) : tag.opensLoop ↔ tag.loopRole = .opening := by
  grind [Tag.opensLoop, Tag.loopRole]

theorem closesLoop_iff (tag : Tag) : tag.closesLoop ↔ tag.loopRole = .ending := by
  grind [Tag.closesLoop, Tag.loopRole]

theorem kind_of_ending {tag : Tag} (h : tag.loopRole = .ending) : tag.kind = .forEnd := by
  simpa [Tag.closesLoop] using (closesLoop_iff tag).mpr h

theorem loopRole_ne_part (tag : Tag) : tag.loopRole ≠ .part := by
  grind [Tag.loopRole]

theorem pending_cons (piece : Piece) (pieces : List Piece)
    : pending (piece :: pieces) = (pending pieces).add piece :=
  rfl

theorem Pending.add_of_other {piece : Piece} (h : piece.roleBy Tag.loopRole = .other)
    (pending : Pending)
    : pending.add piece = pending.cons (.piece piece) := by
  cases piece with
  | char c => rfl
  | tag tag =>
      rw [Piece.roleBy, Tag.loopRole] at h
      rw [add]
      cases hk : tag.kind <;> simp_all

theorem Pending.add_of_ending {tag : Tag} (h : tag.loopRole = .ending) (pending : Pending)
    : pending.add (.tag tag) = ([], (tag, pending.1) :: pending.2) := by
  simp only [add, kind_of_ending h]

theorem exists_header_of_opening {tag : Tag} (h : tag.loopRole = .opening)
    : ∃ header, tag.kind = .forStart ∧ Header.read? tag.argument = some header := by
  obtain ⟨hk, hr⟩ : tag.kind = .forStart ∧ (Header.read? tag.argument).isSome := by
    simpa [Tag.opensLoop] using (opensLoop_iff tag).mpr h
  obtain ⟨header, hr⟩ := Option.isSome_iff_exists.mp hr
  exact ⟨header, hk, hr⟩

/-- Everything that opens no loop stays, and the pieces behind it are searched as if they stood
alone.
-/
theorem ofPieces_cons {piece : Piece} (h : piece.roleBy Tag.loopRole ≠ .opening)
    (pieces : List Piece)
    : ofPieces (piece :: pieces) = .piece piece :: ofPieces pieces := by
  rw [ofPieces, pending_cons, ofPieces]
  cases hr : piece.roleBy Tag.loopRole with
  | opening => exact absurd hr h
  | other =>
      rw [Pending.add_of_other hr]
      rfl
  | part =>
      obtain ⟨tag, rfl⟩ := Piece.exists_tag_of_roleBy hr (by decide)
      exact absurd hr (loopRole_ne_part tag)
  | ending =>
      obtain ⟨tag, rfl⟩ := Piece.exists_tag_of_roleBy hr (by decide)
      rw [Pending.add_of_ending hr]
      rfl

/-- Holds when a row of pieces leads to an end behind `depth` ends of loops that are open before the
row: the pieces inside, in front of the end, leave those to what is before them, and the row leaves
the end and those behind it too.
-/
structure LeadsTo (depth : Nat) (rest inside : List Piece) (closing : Tag) (behind : List Piece)
    (skipped : List (Tag × List LoopPart)) : Prop where
  row : rest = inside ++ .tag closing :: behind
  closes : closing.kind = .forEnd
  depth : skipped.length = depth
  inside : pending inside = ((pending rest).1, skipped)
  ends : (pending rest).2 = skipped ++ (closing, (pending behind).1) :: (pending behind).2

namespace LeadsTo

variable {depth : Nat} {piece : Piece} {tag closing : Tag} {rest inside behind : List Piece}
  {skipped : List (Tag × List LoopPart)}

/-- An end leads to itself when no other loop is open. -/
theorem here (hr : tag.loopRole = .ending) (behind : List Piece)
    : LeadsTo 0 (.tag tag :: behind) [] tag behind [] where
  row := rfl
  closes := kind_of_ending hr
  depth := rfl
  inside := by
    rw [pending_cons, Pending.add_of_ending hr]
    rfl
  ends := by
    rw [pending_cons, Pending.add_of_ending hr]
    rfl

theorem other (hr : piece.roleBy Tag.loopRole = .other)
    (h : LeadsTo depth rest inside closing behind skipped)
    : LeadsTo depth (piece :: rest) (piece :: inside) closing behind skipped where
  row := by rw [h.row, List.cons_append]
  closes := h.closes
  depth := h.depth
  inside := by
    rw [pending_cons, pending_cons, h.inside, Pending.add_of_other hr, Pending.add_of_other hr]
    rfl
  ends := by
    rw [pending_cons, Pending.add_of_other hr]
    exact h.ends

/-- An end in front is one more that is skipped. -/
theorem ending (hr : tag.loopRole = .ending)
    (h : LeadsTo depth rest inside closing behind skipped)
    : LeadsTo (depth + 1) (.tag tag :: rest) (.tag tag :: inside) closing behind
      ((tag, (pending rest).1) :: skipped) where
  row := by rw [h.row, List.cons_append]
  closes := h.closes
  depth := by rw [List.length_cons, h.depth]
  inside := by
    rw [pending_cons, pending_cons, h.inside, Pending.add_of_ending hr, Pending.add_of_ending hr]
  ends := by
    rw [pending_cons, Pending.add_of_ending hr, h.ends]
    rfl

/-- A loop that opens in front takes the first of the ends that are skipped. -/
theorem opening (hr : tag.loopRole = .opening)
    (h : LeadsTo (depth + 1) rest inside closing behind skipped)
    : ∃ others, LeadsTo depth (.tag tag :: rest) (.tag tag :: inside) closing behind others := by
  obtain ⟨header, hk, hh⟩ := exists_header_of_opening hr
  have hadd : ∀ behind : Pending, behind.add (.tag tag) = behind.openLoop tag header :=
    fun behind => by simp only [Pending.add, hk, hh]
  obtain ⟨⟨first, parts⟩, others, rfl⟩ := List.exists_cons_of_length_eq_add_one h.depth
  have hopen : pending (.tag tag :: rest)
      = (.loop header (pending rest).1 :: parts,
        others ++ (closing, (pending behind).1) :: (pending behind).2) := by
    rw [pending_cons, hadd, ← Prod.eta (pending rest), h.ends]
    rfl
  refine ⟨others, by rw [h.row, List.cons_append], h.closes, by simpa using h.depth, ?_, ?_⟩
  · rw [pending_cons, hopen, h.inside, hadd]
    rfl
  · rw [hopen]

end LeadsTo

/-- The search comes to the end that the pieces lead to, by induction on the pieces with a case for
each role of the first one.
-/
theorem leadsTo_of_markersFrom? {place depth : Nat} {rest : List Piece} {places : List Nat}
    (h : Piece.markersFrom? Tag.loopRole place depth rest = some places)
    : ∃ inside closing behind skipped, LeadsTo depth rest inside closing behind skipped
      ∧ places = [place + inside.length] := by
  induction rest generalizing place depth with
  | nil => cases h
  | cons piece rest ih =>
      cases hr : piece.roleBy Tag.loopRole with
      | other =>
          simp only [Piece.markersFrom?, hr] at h
          obtain ⟨inside, closing, behind, skipped, hl, rfl⟩ := ih h
          exact ⟨_, _, _, _, hl.other hr, by rw [Piece.add_length_cons]⟩
      | part =>
          obtain ⟨tag, rfl⟩ := Piece.exists_tag_of_roleBy hr (by decide)
          exact absurd hr (loopRole_ne_part tag)
      | ending =>
          obtain ⟨tag, rfl⟩ := Piece.exists_tag_of_roleBy hr (by decide)
          cases depth with
          | zero =>
              simp only [Piece.markersFrom?, hr] at h
              exact ⟨_, _, _, _, .here hr rest, (Option.some.inj h).symm⟩
          | succ depth =>
              simp only [Piece.markersFrom?, hr] at h
              obtain ⟨inside, closing, behind, skipped, hl, rfl⟩ := ih h
              exact ⟨_, _, _, _, hl.ending hr, by rw [Piece.add_length_cons]⟩
      | opening =>
          obtain ⟨tag, rfl⟩ := Piece.exists_tag_of_roleBy hr (by decide)
          simp only [Piece.markersFrom?, hr] at h
          obtain ⟨inside, closing, behind, skipped, hl, rfl⟩ := ih h
          obtain ⟨others, ho⟩ := hl.opening hr
          exact ⟨_, _, _, _, ho, by rw [Piece.add_length_cons]⟩

/-- The pieces in front of the end that the search comes to are the body of a loop, and the ones
behind it are searched as if they stood alone.
-/
theorem ofPieces_of_markersFrom? {pieces : List Piece} {start : Nat} {opening : Tag}
    {header : Header} {places : List Nat} (ho : pieces[start]? = some (.tag opening))
    (hk : opening.kind = .forStart) (hh : Header.read? opening.argument = some header)
    (hm : Piece.markersFrom? Tag.loopRole (start + 1) 0 (pieces.drop (start + 1)) = some places)
    : ∃ index closing, places = [index] ∧ start < index
      ∧ pieces[index]? = some (.tag closing) ∧ closing.kind = .forEnd
      ∧ ofPieces (pieces.drop start)
        = .loop header (ofPieces (pieces.extract (start + 1) index))
          :: ofPieces (pieces.drop (index + 1)) := by
  obtain ⟨inside, closing, behind, skipped, hl, rfl⟩ := leadsTo_of_markersFrom? hm
  obtain rfl := List.length_eq_zero_iff.mp hl.depth
  obtain ⟨hbody, hend, hbehind⟩ := Piece.extract_of_drop_eq_append hl.row
  refine ⟨start + 1 + inside.length, closing, rfl, by omega, hend, hl.closes, ?_⟩
  rw [Piece.drop_of_getElem? ho, hbody, hbehind, ofPieces, pending_cons, ofPieces, ofPieces,
    hl.inside, ← Prod.eta (pending (pieces.drop _)), hl.ends]
  simp [Pending.add, hk, hh, Pending.openLoop]

/-- A loop without an end stays, and the pieces behind its opening tag are searched as if they
stood alone.
-/
theorem ofPieces_of_markersFrom?_eq_none {pieces : List Piece} {start : Nat} {opening : Tag}
    {header : Header} (ho : pieces[start]? = some (.tag opening))
    (hk : opening.kind = .forStart) (hh : Header.read? opening.argument = some header)
    (hm : Piece.markersFrom? Tag.loopRole (start + 1) 0 (pieces.drop (start + 1)) = none)
    : ofPieces (pieces.drop start) = .unclosed opening :: ofPieces (pieces.drop (start + 1)) := by
  have hc : (Piece.markersFrom? Tag.loopRole (start + 1) 0 (pieces.drop (start + 1))).isSome
      = Piece.closes Tag.opensLoop Tag.closesLoop 0 (pieces.drop (start + 1)) :=
    Piece.isSome_markersFrom? opensLoop_iff closesLoop_iff
  rw [hm, Option.isSome_none, eq_comm, Bool.eq_false_iff, Ne, closes_iff_lt_length] at hc
  rw [Piece.drop_of_getElem? ho, ofPieces, pending_cons, ofPieces]
  generalize pending (pieces.drop (start + 1)) = behind at hc ⊢
  obtain ⟨parts, ends⟩ := behind
  obtain rfl : ends = [] := by simpa using hc
  simp [Pending.add, hk, hh, Pending.openLoop]

end LoopPart

namespace ChoicePart

-----------------------------------------------------------------------------------------
-- The search for choices
-----------------------------------------------------------------------------------------

theorem opensChoice_iff (tag : Tag) : tag.opensChoice ↔ tag.choiceRole = .opening := by
  grind [Tag.opensChoice, Tag.choiceRole]

theorem closesChoice_iff (tag : Tag) : tag.closesChoice ↔ tag.choiceRole = .ending := by
  grind [Tag.closesChoice, Tag.choiceRole]

theorem kind_of_ending {tag : Tag} (h : tag.choiceRole = .ending) : tag.kind = .ifEnd := by
  simpa [Tag.closesChoice] using (closesChoice_iff tag).mpr h

theorem kind_ne_of_part {tag : Tag} (h : tag.choiceRole = .part) : tag.kind ≠ .ifEnd := by
  intro hk
  rw [Tag.choiceRole, hk] at h
  cases h

theorem pending_cons (piece : Piece) (pieces : List Piece)
    : pending (piece :: pieces) = (pending pieces).add piece :=
  rfl

theorem Pending.add_of_other {piece : Piece} (h : piece.roleBy Tag.choiceRole = .other)
    (pending : Pending)
    : pending.add piece = pending.cons (.piece piece) := by
  cases piece with
  | char c => rfl
  | tag tag =>
      rw [Piece.roleBy, Tag.choiceRole] at h
      rw [add]
      cases hk : tag.kind <;> simp_all

theorem Pending.add_of_marker {tag : Tag}
    (h : tag.choiceRole = .part ∨ tag.choiceRole = .ending) (pending : Pending)
    : pending.add (.tag tag) = ([], (tag, pending.1) :: pending.2) := by
  rw [Tag.choiceRole] at h
  rw [add]
  cases hk : tag.kind <;> simp_all

theorem Pending.add_of_opening {tag : Tag} (h : tag.choiceRole = .opening) (pending : Pending)
    : pending.add (.tag tag) = pending.openChoice tag := by
  have hk : tag.kind = .ifStart := by simpa [Tag.opensChoice] using (opensChoice_iff tag).mpr h
  simp only [add, hk]

/-- Everything that opens no choice stays, and the pieces behind it are searched as if they stood
alone.
-/
theorem ofPieces_cons {piece : Piece} (h : piece.roleBy Tag.choiceRole ≠ .opening)
    (pieces : List Piece)
    : ofPieces (piece :: pieces) = .piece piece :: ofPieces pieces := by
  rw [ofPieces, pending_cons, ofPieces]
  cases hr : piece.roleBy Tag.choiceRole with
  | opening => exact absurd hr h
  | other =>
      rw [Pending.add_of_other hr]
      rfl
  | part =>
      obtain ⟨tag, rfl⟩ := Piece.exists_tag_of_roleBy hr (by decide)
      rw [Pending.add_of_marker (.inl hr)]
      rfl
  | ending =>
      obtain ⟨tag, rfl⟩ := Piece.exists_tag_of_roleBy hr (by decide)
      rw [Pending.add_of_marker (.inr hr)]
      rfl

/-- Rows of tags that hold the ends of `depth` choices, the last of them as the last one. -/
inductive EndsAll : Nat → List (Tag × List ChoicePart) → Prop where
  | none : EndsAll 0 []
  | part {depth : Nat} {tag : Tag} {parts : List ChoicePart} {rest : List (Tag × List ChoicePart)}
      : tag.kind ≠ .ifEnd → EndsAll (depth + 1) rest → EndsAll (depth + 1) ((tag, parts) :: rest)
  | ending {depth : Nat} {tag : Tag} {parts : List ChoicePart}
      {rest : List (Tag × List ChoicePart)}
      : tag.kind = .ifEnd → EndsAll depth rest → EndsAll (depth + 1) ((tag, parts) :: rest)

/-- A cut takes the first end with what is in front of it, whatever is behind the row. -/
theorem EndsAll.exists_cutAtEnd? {depth : Nat} {skipped : List (Tag × List ChoicePart)}
    (h : EndsAll (depth + 1) skipped)
    : ∃ cut parts others, EndsAll depth others
      ∧ ∀ more, cutAtEnd? (skipped ++ more) = some (cut, (parts, others ++ more)) := by
  induction skipped with
  | nil => cases h
  | cons branch skipped ih =>
      cases h with
      | @part _ tag parts _ hk hs =>
          obtain ⟨cut, after, others, ho, hc⟩ := ih hs
          refine ⟨(tag, parts) :: cut, after, others, ho, ?_⟩
          intro more
          simp [cutAtEnd?, hk, hc more]
      | @ending _ tag parts _ hk hs =>
          refine ⟨[], parts, skipped, hs, ?_⟩
          intro more
          simp [cutAtEnd?, hk]

/-- Holds when a row of pieces leads to a tag behind the ends of `depth` choices that are open
before the row: the pieces inside, in front of the tag, leave those to what is before them, and the
row leaves the tag and those behind it too.
-/
structure LeadsTo (depth : Nat) (rest inside : List Piece) (marker : Tag) (behind : List Piece)
    (skipped : List (Tag × List ChoicePart)) : Prop where
  row : rest = inside ++ .tag marker :: behind
  depth : EndsAll depth skipped
  inside : pending inside = ((pending rest).1, skipped)
  tags : (pending rest).2 = skipped ++ (marker, (pending behind).1) :: (pending behind).2

namespace LeadsTo

variable {depth : Nat} {piece : Piece} {tag marker : Tag} {rest inside behind : List Piece}
  {skipped : List (Tag × List ChoicePart)}

/-- A tag that parts or ends a choice leads to itself when no other choice is open. -/
theorem here (hr : tag.choiceRole = .part ∨ tag.choiceRole = .ending) (behind : List Piece)
    : LeadsTo 0 (.tag tag :: behind) [] tag behind [] where
  row := rfl
  depth := .none
  inside := by
    rw [pending_cons, Pending.add_of_marker hr]
    rfl
  tags := by
    rw [pending_cons, Pending.add_of_marker hr]
    rfl

theorem other (hr : piece.roleBy Tag.choiceRole = .other)
    (h : LeadsTo depth rest inside marker behind skipped)
    : LeadsTo depth (piece :: rest) (piece :: inside) marker behind skipped where
  row := by rw [h.row, List.cons_append]
  depth := h.depth
  inside := by
    rw [pending_cons, pending_cons, h.inside, Pending.add_of_other hr, Pending.add_of_other hr]
    rfl
  tags := by
    rw [pending_cons, Pending.add_of_other hr]
    exact h.tags

/-- A tag that parts or ends a choice inside is one more that is skipped. -/
theorem skip {more : Nat} (hr : tag.choiceRole = .part ∨ tag.choiceRole = .ending)
    (h : LeadsTo depth rest inside marker behind skipped)
    (hs : EndsAll more ((tag, (pending rest).1) :: skipped))
    : LeadsTo more (.tag tag :: rest) (.tag tag :: inside) marker behind
      ((tag, (pending rest).1) :: skipped) where
  row := by rw [h.row, List.cons_append]
  depth := hs
  inside := by
    rw [pending_cons, pending_cons, h.inside, Pending.add_of_marker hr, Pending.add_of_marker hr]
  tags := by
    rw [pending_cons, Pending.add_of_marker hr, h.tags]
    rfl

theorem part (hr : tag.choiceRole = .part)
    (h : LeadsTo (depth + 1) rest inside marker behind skipped)
    : LeadsTo (depth + 1) (.tag tag :: rest) (.tag tag :: inside) marker behind
      ((tag, (pending rest).1) :: skipped) :=
  h.skip (.inl hr) (.part (kind_ne_of_part hr) h.depth)

theorem ending (hr : tag.choiceRole = .ending)
    (h : LeadsTo depth rest inside marker behind skipped)
    : LeadsTo (depth + 1) (.tag tag :: rest) (.tag tag :: inside) marker behind
      ((tag, (pending rest).1) :: skipped) :=
  h.skip (.inr hr) (.ending (kind_of_ending hr) h.depth)

/-- A choice that opens in front is cut off at the first of the ends that are skipped. -/
theorem opening (hr : tag.choiceRole = .opening)
    (h : LeadsTo (depth + 1) rest inside marker behind skipped)
    : ∃ left, LeadsTo depth (.tag tag :: rest) (.tag tag :: inside) marker behind left := by
  have hadd := Pending.add_of_opening hr
  obtain ⟨cut, parts, left, hl, hc⟩ := h.depth.exists_cutAtEnd?
  have hopen : pending (.tag tag :: rest)
      = (.choice ((tag, (pending rest).1) :: cut) :: parts,
        left ++ (marker, (pending behind).1) :: (pending behind).2) := by
    rw [pending_cons, hadd, Pending.openChoice, h.tags, hc]
    rfl
  have hcut : cutAtEnd? skipped = some (cut, (parts, left)) := by simpa using hc []
  refine ⟨left, by rw [h.row, List.cons_append], hl, ?_, ?_⟩
  · rw [pending_cons, hopen, h.inside, hadd, Pending.openChoice, hcut]
    rfl
  · rw [hopen]

end LeadsTo

/-- The search comes first to the tag that the pieces lead to, which parts or ends the block that is
open before them; by induction on the pieces with a case for each role of the first one.
-/
theorem leadsTo_of_markersFrom? {place depth : Nat} {rest : List Piece} {places : List Nat}
    (h : Piece.markersFrom? Tag.choiceRole place depth rest = some places)
    : ∃ inside marker behind skipped others, LeadsTo depth rest inside marker behind skipped
      ∧ places = (place + inside.length) :: others
      ∧ ((marker.choiceRole = .ending ∧ others = [])
        ∨ (marker.choiceRole = .part
          ∧ Piece.markersFrom? Tag.choiceRole (place + inside.length + 1) 0 behind
            = some others)) := by
  induction rest generalizing place depth with
  | nil => cases h
  | cons piece rest ih =>
      cases hr : piece.roleBy Tag.choiceRole with
      | other =>
          simp only [Piece.markersFrom?, hr] at h
          obtain ⟨inside, marker, behind, skipped, others, hl, rfl, hm⟩ := ih h
          exact ⟨_, _, _, _, _, hl.other hr, by rw [Piece.add_length_cons],
            by rwa [Piece.add_length_cons]⟩
      | part =>
          obtain ⟨tag, rfl⟩ := Piece.exists_tag_of_roleBy hr (by decide)
          cases depth with
          | zero =>
              simp only [Piece.markersFrom?, hr, Option.map_eq_some_iff] at h
              obtain ⟨others, ho, rfl⟩ := h
              exact ⟨_, _, _, _, _, .here (.inl hr) rest, rfl, .inr ⟨hr, ho⟩⟩
          | succ depth =>
              simp only [Piece.markersFrom?, hr] at h
              obtain ⟨inside, marker, behind, skipped, others, hl, rfl, hm⟩ := ih h
              exact ⟨_, _, _, _, _, hl.part hr, by rw [Piece.add_length_cons],
                by rwa [Piece.add_length_cons]⟩
      | ending =>
          obtain ⟨tag, rfl⟩ := Piece.exists_tag_of_roleBy hr (by decide)
          cases depth with
          | zero =>
              simp only [Piece.markersFrom?, hr] at h
              obtain rfl := Option.some.inj h
              exact ⟨_, _, _, _, _, .here (.inr hr) rest, rfl, .inl ⟨hr, rfl⟩⟩
          | succ depth =>
              simp only [Piece.markersFrom?, hr] at h
              obtain ⟨inside, marker, behind, skipped, others, hl, rfl, hm⟩ := ih h
              exact ⟨_, _, _, _, _, hl.ending hr, by rw [Piece.add_length_cons],
                by rwa [Piece.add_length_cons]⟩
      | opening =>
          obtain ⟨tag, rfl⟩ := Piece.exists_tag_of_roleBy hr (by decide)
          simp only [Piece.markersFrom?, hr] at h
          obtain ⟨inside, marker, behind, skipped, others, hl, rfl, hm⟩ := ih h
          obtain ⟨left, hleft⟩ := hl.opening hr
          exact ⟨_, _, _, _, _, hleft, by rw [Piece.add_length_cons],
            by rwa [Piece.add_length_cons]⟩

/-- What a branch between two places has to be: the tag at the first one, with the parts that the
pieces between them make alone.
-/
structure IsBranch (pieces : List Piece) (window : Nat × Nat) (branch : Tag × List ChoicePart)
    : Prop where
  order : window.1 < window.2
  head : pieces[window.1]? = some (.tag branch.1)
  body : branch.2 = ofPieces (pieces.extract (window.1 + 1) window.2)

/-- The tags up to the end that the search comes to are cut off as branches between neighbouring
places, by induction on the places.
-/
theorem cutAtEnd?_of_markersFrom? {pieces : List Piece} {first : Nat} {places : List Nat}
    (h : Piece.markersFrom? Tag.choiceRole first 0 (pieces.drop first) = some places)
    : ∃ next others index closing branches, places = next :: others ∧ first ≤ next
      ∧ (pending (pieces.drop first)).1 = ofPieces (pieces.extract first next)
      ∧ places.getLast? = some index ∧ first ≤ index
      ∧ pieces[index]? = some (.tag closing) ∧ closing.kind = .ifEnd
      ∧ cutAtEnd? (pending (pieces.drop first)).2
        = some (branches, pending (pieces.drop (index + 1)))
      ∧ List.Forall₂ (IsBranch pieces) (places.zip others) branches := by
  induction places generalizing first with
  | nil =>
      obtain ⟨_, _, _, _, _, -, he, -⟩ := leadsTo_of_markersFrom? h
      cases he
  | cons next others ih =>
      obtain ⟨inside, marker, behind, skipped, later, ⟨he, hs, hi, hb⟩, hp, hm⟩ :=
        leadsTo_of_markersFrom? h
      obtain ⟨rfl, rfl⟩ := List.cons.inj hp
      obtain ⟨hinside, hmarker, hbehind⟩ := Piece.extract_of_drop_eq_append he
      cases hs
      have hbody : (pending (pieces.drop first)).1
          = ofPieces (pieces.extract first (first + inside.length)) := by
        rw [hinside, ofPieces, hi]
        simp
      rcases hm with ⟨hr, rfl⟩ | ⟨hr, hm⟩
      · have hk := kind_of_ending hr
        refine ⟨_, _, first + inside.length, marker, [], rfl, by omega, hbody, rfl, by omega,
          hmarker, hk, ?_, ?_⟩
        · rw [hb, hbehind]
          simp [cutAtEnd?, hk]
        · exact .nil
      · rw [← hbehind] at hm
        obtain ⟨after, further, index, closing, branches, rfl, hafter, hfirst, hlast, hle, hend,
          hk, hc, hw⟩ := ih hm
        have hne := kind_ne_of_part hr
        refine ⟨_, _, index, closing, (marker, (pending behind).1) :: branches, rfl, by omega,
          hbody, ?_, by omega, hend, hk, ?_, ?_⟩
        · rw [List.getLast?_cons_cons, hlast]
        · rw [hbehind] at hc
          rw [hb]
          simp [cutAtEnd?, hne, hc]
        · rw [hbehind] at hfirst
          exact .cons ⟨Nat.lt_of_succ_le hafter, hmarker, hfirst⟩ hw

/-- The pieces between the places that the search comes to are the bodies of a choice's branches,
and the ones behind the last place are searched as if they stood alone.
-/
theorem ofPieces_of_markersFrom? {pieces : List Piece} {start : Nat} {opening : Tag}
    {places : List Nat} (ho : pieces[start]? = some (.tag opening))
    (hk : opening.kind = .ifStart)
    (hm : Piece.markersFrom? Tag.choiceRole (start + 1) 0 (pieces.drop (start + 1)) = some places)
    : ∃ index closing branches, places.getLast? = some index ∧ start < index
      ∧ pieces[index]? = some (.tag closing) ∧ closing.kind = .ifEnd
      ∧ List.Forall₂ (IsBranch pieces) ((start :: places).zip places) branches
      ∧ ofPieces (pieces.drop start)
        = .choice branches :: ofPieces (pieces.drop (index + 1)) := by
  obtain ⟨next, others, index, closing, branches, rfl, hnext, hfirst, hlast, hle, hend, hclosing,
    hc, hw⟩ := cutAtEnd?_of_markersFrom? hm
  refine ⟨index, closing, (opening, (pending (pieces.drop (start + 1))).1) :: branches, hlast, hle,
    hend, hclosing, .cons ⟨Nat.lt_of_succ_le hnext, ho, hfirst⟩ hw, ?_⟩
  rw [Piece.drop_of_getElem? ho, ofPieces, pending_cons]
  simp [Pending.add, hk, Pending.openChoice, hc, Pending.cons, ofPieces]

/-- A choice without an end stays, and the pieces behind its opening tag are searched as if they
stood alone.
-/
theorem ofPieces_of_markersFrom?_eq_none {pieces : List Piece} {start : Nat} {opening : Tag}
    (ho : pieces[start]? = some (.tag opening)) (hk : opening.kind = .ifStart)
    (hm : Piece.markersFrom? Tag.choiceRole (start + 1) 0 (pieces.drop (start + 1)) = none)
    : ofPieces (pieces.drop start) = .unclosed opening :: ofPieces (pieces.drop (start + 1)) := by
  have hc : (Piece.markersFrom? Tag.choiceRole (start + 1) 0 (pieces.drop (start + 1))).isSome
      = Piece.closes Tag.opensChoice Tag.closesChoice 0 (pieces.drop (start + 1)) :=
    Piece.isSome_markersFrom? opensChoice_iff closesChoice_iff
  rw [hm, Option.isSome_none, eq_comm, Bool.eq_false_iff, Ne, closes_iff_lt_countEnds] at hc
  have hcut : cutAtEnd? (pending (pieces.drop (start + 1))).2 = none := by
    refine cutAtEnd?_eq_none_iff.mpr ?_
    simpa [countEnds, List.countP_eq_zero] using hc
  rw [Piece.drop_of_getElem? ho, ofPieces, pending_cons]
  simp [Pending.add, hk, Pending.openChoice, hcut, Pending.cons, ofPieces]

end ChoicePart

-----------------------------------------------------------------------------------------
-- Blocks are matched by balance
-----------------------------------------------------------------------------------------

/-- No tag parts a loop, so its tags are the ones at both ends. -/
theorem Piece.markersOf_loopRole (pieces : List Piece) (start index : Nat)
    : Piece.markersOf Tag.loopRole pieces start index = [start, index] := by
  have hnone : Piece.partPlaces Tag.loopRole pieces (start + 1) index = [] := by
    refine List.filter_eq_nil_iff.mpr ?_
    intro place _ h
    rw [Piece.partsAt, Bool.and_eq_true, Option.any_eq_true] at h
    obtain ⟨⟨piece, -, hr⟩, -⟩ := h
    cases piece with
    | char c => cases of_decide_eq_true hr
    | tag tag => exact LoopPart.loopRole_ne_part tag (of_decide_eq_true hr)
  rw [Piece.markersOf, hnone]
  rfl

/-- Blocks are matched by balance, for every row of pieces and every place to start from, by the
run of one counter. A loop ends at the least place up to which the ends of loops outnumber the
tags with a readable header that open one, and has none where there is no such place. A choice
ends likewise, and its tags are the opening one, those that part it where as many choices have
ended as been opened, and its end. The counter is the openings less the endings, which are never
more. The searches make of an opening tag the block between these places, and leave it where there
is none.
-/
theorem blockMatching_isBalanced (pieces : List Piece) (start : Nat)
    : (∀ index, Piece.block? Tag.loopRole pieces start = some [start, index]
        ↔ IsLeast (Piece.closings Tag.loopRole pieces (start + 1)) index)
      ∧ (Piece.block? Tag.loopRole pieces start = none
        ↔ Piece.closings Tag.loopRole pieces (start + 1) = ∅)
      ∧ (∀ places, Piece.block? Tag.choiceRole pieces start = some places
        ↔ ∃ index, IsLeast (Piece.closings Tag.choiceRole pieces (start + 1)) index
          ∧ places
            = start :: (Piece.partPlaces Tag.choiceRole pieces (start + 1) index ++ [index]))
      ∧ (Piece.block? Tag.choiceRole pieces start = none
        ↔ Piece.closings Tag.choiceRole pieces (start + 1) = ∅)
      ∧ (∀ role place, start < place → place ≤ pieces.length
        → (∀ index ∈ Piece.closings role pieces (start + 1), place ≤ index)
        → Piece.tally role .ending (pieces.extract (start + 1) place)
            ≤ Piece.tally role .opening (pieces.extract (start + 1) place)
          ∧ Piece.block? role pieces start
            = (Piece.markersFrom? role place
                (Piece.tally role .opening (pieces.extract (start + 1) place)
                  - Piece.tally role .ending (pieces.extract (start + 1) place))
                (pieces.drop place)).map
                  (start :: Piece.partPlaces role pieces (start + 1) place ++ ·))
      ∧ (∀ opening header, pieces[start]? = some (.tag opening) → opening.kind = .forStart
        → Header.read? opening.argument = some header
        → (∀ index, IsLeast (Piece.closings Tag.loopRole pieces (start + 1)) index
            → LoopPart.ofPieces (pieces.drop start)
              = .loop header (LoopPart.ofPieces (pieces.extract (start + 1) index))
                :: LoopPart.ofPieces (pieces.drop (index + 1)))
          ∧ (Piece.closings Tag.loopRole pieces (start + 1) = ∅
            → LoopPart.ofPieces (pieces.drop start)
              = .unclosed opening :: LoopPart.ofPieces (pieces.drop (start + 1))))
      ∧ (∀ opening, pieces[start]? = some (.tag opening) → opening.kind = .ifStart
        → (∀ index, IsLeast (Piece.closings Tag.choiceRole pieces (start + 1)) index
            → ∃ branches,
              List.Forall₂ (ChoicePart.IsBranch pieces)
                ((Piece.markersOf Tag.choiceRole pieces start index).zip
                  (Piece.markersOf Tag.choiceRole pieces start index).tail) branches
              ∧ ChoicePart.ofPieces (pieces.drop start)
                = .choice branches :: ChoicePart.ofPieces (pieces.drop (index + 1)))
          ∧ (Piece.closings Tag.choiceRole pieces (start + 1) = ∅
            → ChoicePart.ofPieces (pieces.drop start)
              = .unclosed opening :: ChoicePart.ofPieces (pieces.drop (start + 1)))) := by
  refine ⟨?_, Piece.block?_eq_none_iff, fun places => Piece.block?_eq_some_iff,
    Piece.block?_eq_none_iff, ?_, ?_, ?_⟩
  · intro index
    rw [Piece.block?_eq_some_iff]
    constructor
    · rintro ⟨other, hleast, he⟩
      rw [Piece.markersOf_loopRole] at he
      obtain rfl : index = other := by simpa using he
      exact hleast
    · intro hleast
      exact ⟨index, hleast, (Piece.markersOf_loopRole pieces start index).symm⟩
  · intro role place hs hl hn
    obtain ⟨hle, hrun⟩ := Piece.markersFrom?_eq_map hs hl hn
    refine ⟨hle, ?_⟩
    rw [Piece.block?, hrun, Option.map_map]
    rfl
  · intro opening header ho hk hh
    constructor
    · intro index hleast
      obtain ⟨other, _, he, -, -, -, heq⟩ :=
        LoopPart.ofPieces_of_markersFrom? ho hk hh (Piece.markersFrom?_of_isLeast hleast)
      have hother := Piece.markersOf_loopRole pieces start index
      rw [Piece.markersOf, he] at hother
      obtain rfl : other = index := by simpa using hother
      exact heq
    · intro hnone
      exact LoopPart.ofPieces_of_markersFrom?_eq_none ho hk hh
        (Piece.markersFrom?_of_closings_eq_empty hnone)
  · intro opening ho hk
    constructor
    · intro index hleast
      obtain ⟨other, _, branches, he, -, -, -, hw, heq⟩ :=
        ChoicePart.ofPieces_of_markersFrom? ho hk (Piece.markersFrom?_of_isLeast hleast)
      obtain rfl : other = index := by simpa using he.symm
      exact ⟨branches, hw, heq⟩
    · intro hnone
      exact ChoicePart.ofPieces_of_markersFrom?_eq_none ho hk
        (Piece.markersFrom?_of_closings_eq_empty hnone)

/-- A loop and a choice of which neither is inside the other. -/
def overlappingBlocks : List Piece := [
  .tag (Tag.spaced .forStart "x in xs".toList),
  .tag (Tag.spaced .ifStart ['a']),
  .char '-',
  .tag (Tag.spaced .forEnd []),
  .tag (Tag.spaced .elseBranch []),
  .tag (Tag.spaced .ifEnd [])]

/-- Blocks that overlap are matched each by its own tags. -/
theorem blockMatching_overlapping
    : IsLeast (Piece.closings Tag.loopRole overlappingBlocks 1) 3
      ∧ LoopPart.ofPieces overlappingBlocks
        = .loop ⟨"x", "xs"⟩ (LoopPart.ofPieces (overlappingBlocks.extract 1 3))
          :: LoopPart.ofPieces (overlappingBlocks.drop 4)
      ∧ ∃ branches,
        List.Forall₂ (ChoicePart.IsBranch overlappingBlocks) [(1, 4), (4, 5)] branches
        ∧ ChoicePart.ofPieces (overlappingBlocks.drop 1) = [.choice branches] := by
  obtain ⟨hloop, -, -, -, -, hbody, -⟩ := blockMatching_isBalanced overlappingBlocks 0
  obtain ⟨-, -, hchoice, -, -, -, hbranches⟩ := blockMatching_isBalanced overlappingBlocks 1
  have hleast : IsLeast (Piece.closings Tag.loopRole overlappingBlocks 1) 3 :=
    (hloop 3).mp (by decide)
  obtain ⟨index, hend, he⟩ := (hchoice [1, 4, 5]).mp (by decide)
  obtain rfl : index = 5 := by
    have h := congrArg List.getLast? he
    rw [← List.cons_append, List.getLast?_concat] at h
    exact (Option.some.inj h).symm
  refine ⟨hleast, (hbody _ ⟨"x", "xs"⟩ rfl rfl (by decide)).1 3 hleast, ?_⟩
  exact (hbranches _ rfl rfl).1 5 hend

end ReportTemplate.Template
