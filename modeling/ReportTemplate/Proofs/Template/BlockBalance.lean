import Mathlib.Data.Nat.Find
import Mathlib.Order.Bounds.Basic
import ReportTemplate.Proofs.Template.Literal

/-! Blocks and the balance of their tags.
A counter of open blocks finds the first place up to which the endings behind an opening outnumber
the openings there, and the places before it where both are equally many and a tag parts the
block.
-/

namespace ReportTemplate.Template

-----------------------------------------------------------------------------------------
-- The part of tags in blocks
-----------------------------------------------------------------------------------------

/-- What a tag does to the blocks of one kind. -/
inductive Role where
  | opening
  | part
  | ending
  | other
  deriving DecidableEq, Repr

/-- Loops are opened by tags with a header that can be read, and have no parts. -/
def Tag.loopRole (tag : Tag) : Role :=
  match tag.kind with
  | .forStart => if (Header.read? tag.argument).isSome then .opening else .other
  | .forEnd => .ending
  | _ => .other

def Tag.choiceRole (tag : Tag) : Role :=
  match tag.kind with
  | .ifStart => .opening
  | .elifBranch => .part
  | .elseBranch => .part
  | .ifEnd => .ending
  | _ => .other

namespace Piece

/-- What a piece does to blocks; characters do nothing. -/
def roleBy (role : Tag → Role) : Piece → Role
  | .char _ => .other
  | .tag found => role found

/-- The count of pieces that do something to blocks. -/
def tally (role : Tag → Role) (which : Role) (pieces : List Piece) : Nat :=
  pieces.countP fun piece => piece.roleBy role = which

/-- Searches for the end of a block that is open before some pieces, of which the first is at
`place`, while `depth` blocks inside it are open. Gives the places of the tags that part the block
and the place of its end.
-/
def markersFrom? (role : Tag → Role) : Nat → Nat → List Piece → Option (List Nat)
  | _, _, [] => none
  | place, depth, piece :: pieces =>
      match piece.roleBy role, depth with
      | .opening, depth => markersFrom? role (place + 1) (depth + 1) pieces
      | .ending, 0 => some [place]
      | .ending, depth + 1 => markersFrom? role (place + 1) depth pieces
      | .part, 0 => (markersFrom? role (place + 1) 0 pieces).map (place :: ·)
      | _, depth => markersFrom? role (place + 1) depth pieces

/-- The places of a block's tags: the opening one at `start`, those that part it, and its end. -/
def block? (role : Tag → Role) (pieces : List Piece) (start : Nat) : Option (List Nat) :=
  (markersFrom? role (start + 1) 0 (pieces.drop (start + 1))).map (start :: ·)

-----------------------------------------------------------------------------------------
-- Balance
-----------------------------------------------------------------------------------------

/-- The places up to which the endings from `first` on outnumber the openings there. -/
def closings (role : Tag → Role) (pieces : List Piece) (first : Nat) : Set Nat :=
  {index | first ≤ index ∧ index < pieces.length
    ∧ tally role .opening (pieces.extract first (index + 1))
      < tally role .ending (pieces.extract first (index + 1))}

/-- Holds for the places of tags that part blocks and before which the endings from `first` on are
as many as the openings there.
-/
def partsAt (role : Tag → Role) (pieces : List Piece) (first place : Nat) : Bool :=
  pieces[place]?.any (fun piece => piece.roleBy role = .part)
  && tally role .opening (pieces.extract first place)
    = tally role .ending (pieces.extract first place)

/-- The places from `first` on and before `stop` of the tags that part a block. -/
def partPlaces (role : Tag → Role) (pieces : List Piece) (first stop : Nat) : List Nat :=
  (List.range' first (stop - first)).filter (partsAt role pieces first)

/-- The places of the tags of a block that is opened at `start` and ends at `index`. -/
def markersOf (role : Tag → Role) (pieces : List Piece) (start index : Nat) : List Nat :=
  start :: (partPlaces role pieces (start + 1) index ++ [index])

variable {role : Tag → Role} {pieces rest : List Piece} {piece : Piece} {first place index : Nat}

theorem tally_append (which : Role) (left right : List Piece)
    : tally role which (left ++ right) = tally role which left + tally role which right :=
  List.countP_append

theorem tally_singleton (which : Role) (piece : Piece)
    : tally role which [piece] = if piece.roleBy role = which then 1 else 0 := by
  simp [tally, List.countP_singleton]

/-- A step of the search: the piece changes the count of open blocks as it changes the openings
less the endings, and its place is kept where it parts the block itself.
-/
theorem markersFrom?_cons {opens ends : Nat} (hle : ends ≤ opens)
    (hn : ends + tally role .ending [piece] ≤ opens + tally role .opening [piece])
    : markersFrom? role place (opens - ends) (piece :: rest)
      = (markersFrom? role (place + 1)
          (opens + tally role .opening [piece] - (ends + tally role .ending [piece])) rest).map
            ((if piece.roleBy role = .part ∧ opens = ends then [place] else []) ++ ·) := by
  obtain ⟨depth, rfl⟩ := Nat.exists_eq_add_of_le hle
  cases hr : piece.roleBy role with
  | opening =>
      have hdepth : ends + depth + 1 - ends = depth + 1 := by omega
      simp [markersFrom?, tally_singleton, hr, hdepth]
  | other => simp [markersFrom?, tally_singleton, hr]
  | part => cases depth <;> simp [markersFrom?, tally_singleton, hr]
  | ending =>
      cases depth with
      | zero =>
          have hopens : tally role .opening [piece] = 0 := by simp [tally_singleton, hr]
          have hends : tally role .ending [piece] = 1 := by simp [tally_singleton, hr]
          omega
      | succ depth =>
          have hdepth : ends + (depth + 1) - (ends + 1) = depth := by omega
          simp [markersFrom?, tally_singleton, hr, hdepth]

theorem extract_succ (h : first ≤ place) (hp : pieces[place]? = some piece)
    : pieces.extract first (place + 1) = pieces.extract first place ++ [piece] := by
  have hcount : place + 1 - first = place - first + 1 := by omega
  have hlast : (pieces.drop first)[place - first]? = some piece := by
    rw [List.getElem?_drop, Nat.add_sub_cancel' h, hp]
  rw [List.extract_eq_take_drop, List.extract_eq_take_drop, hcount, List.take_add_one, hlast]
  rfl

theorem partPlaces_succ (h : first ≤ place) (hp : pieces[place]? = some piece)
    : partPlaces role pieces first (place + 1)
      = partPlaces role pieces first place
        ++ (if piece.roleBy role = .part
              ∧ tally role .opening (pieces.extract first place)
                = tally role .ending (pieces.extract first place)
            then [place] else []) := by
  have hcount : place + 1 - first = place - first + 1 := by omega
  rw [partPlaces, hcount, List.range'_concat, Nat.one_mul, Nat.add_sub_cancel' h,
    List.filter_append, ← partPlaces]
  simp [partsAt, hp, List.filter_cons]

theorem drop_of_getElem? (h : pieces[place]? = some piece)
    : pieces.drop place = piece :: pieces.drop (place + 1) := by
  obtain ⟨hlt, rfl⟩ := List.getElem?_eq_some_iff.mp h
  exact List.drop_eq_getElem_cons hlt

/-- A run of the search up to a place that no closing lies before: the count of open blocks is the
openings less the endings, which never are more, and the places kept are those that part the
block; by induction on the place.
-/
theorem markersFrom?_eq_map (hf : first ≤ place) (hl : place ≤ pieces.length)
    (hn : ∀ index ∈ closings role pieces first, place ≤ index)
    : tally role .ending (pieces.extract first place)
        ≤ tally role .opening (pieces.extract first place)
      ∧ markersFrom? role first 0 (pieces.drop first)
        = (markersFrom? role place
            (tally role .opening (pieces.extract first place)
              - tally role .ending (pieces.extract first place)) (pieces.drop place)).map
              (partPlaces role pieces first place ++ ·) := by
  induction place, hf using Nat.le_induction with
  | base => simp [tally, partPlaces]
  | succ place hf ih =>
      obtain ⟨hle, hi⟩ := ih (by omega) (fun index hm => (Nat.lt_of_succ_le (hn index hm)).le)
      have hp : pieces[place]? = some pieces[place] := List.getElem?_eq_getElem hl
      have hnext : tally role .ending (pieces.extract first (place + 1))
          ≤ tally role .opening (pieces.extract first (place + 1)) := by
        by_contra h
        exact absurd (hn place ⟨hf, hl, not_le.mp h⟩) (Nat.not_succ_le_self place)
      refine ⟨hnext, ?_⟩
      rw [extract_succ hf hp, tally_append, tally_append] at hnext ⊢
      rw [hi, drop_of_getElem? hp, markersFrom?_cons hle hnext, partPlaces_succ hf hp,
        Option.map_map]
      congr 1
      funext places
      rw [Function.comp_apply, List.append_assoc]

/-- The search comes to the least place up to which the endings outnumber the openings. -/
theorem markersFrom?_of_isLeast (h : IsLeast (closings role pieces first) index)
    : markersFrom? role first 0 (pieces.drop first)
      = some (partPlaces role pieces first index ++ [index]) := by
  obtain ⟨⟨hf, hlt, hmore⟩, hleast⟩ := h
  obtain ⟨hle, hrun⟩ := markersFrom?_eq_map hf hlt.le (fun other hm => hleast hm)
  have hp : pieces[index]? = some pieces[index] := List.getElem?_eq_getElem hlt
  rw [extract_succ hf hp, tally_append, tally_append] at hmore
  rw [tally_singleton, tally_singleton] at hmore
  have hr : pieces[index].roleBy role = .ending := by
    by_contra hr
    rw [if_neg hr] at hmore
    omega
  have hdepth : tally role .opening (pieces.extract first index)
      - tally role .ending (pieces.extract first index) = 0 := by
    rw [if_pos hr] at hmore
    omega
  rw [hrun, hdepth, drop_of_getElem? hp]
  simp [markersFrom?, hr]

/-- The search comes to the end of the pieces where the endings never outnumber the openings. -/
theorem markersFrom?_of_closings_eq_empty (h : closings role pieces first = ∅)
    : markersFrom? role first 0 (pieces.drop first) = none := by
  rcases le_total first pieces.length with hle | hge
  · have hn : ∀ index ∈ closings role pieces first, pieces.length ≤ index := by simp [h]
    obtain ⟨-, hrun⟩ := markersFrom?_eq_map hle le_rfl hn
    rw [hrun, List.drop_length]
    rfl
  · rw [List.drop_eq_nil_of_le hge]
    rfl

/-- A set of places is empty or has a least one. -/
theorem closings_cases (role : Tag → Role) (pieces : List Piece) (first : Nat)
    : closings role pieces first = ∅ ∨ ∃ index, IsLeast (closings role pieces first) index := by
  classical
  rcases (closings role pieces first).eq_empty_or_nonempty with he | hne
  · exact .inl he
  · exact .inr ⟨Nat.find hne, Nat.find_spec hne, fun index hm => Nat.find_min' hne hm⟩

theorem block?_eq_some_iff {start : Nat} {places : List Nat}
    : block? role pieces start = some places
      ↔ ∃ index, IsLeast (closings role pieces (start + 1)) index
        ∧ places = markersOf role pieces start index := by
  rw [block?]
  constructor
  · intro h
    rcases closings_cases role pieces (start + 1) with he | ⟨index, hleast⟩
    · rw [markersFrom?_of_closings_eq_empty he] at h
      cases h
    · rw [markersFrom?_of_isLeast hleast] at h
      exact ⟨index, hleast, (Option.some.inj h).symm⟩
  · rintro ⟨index, hleast, rfl⟩
    rw [markersFrom?_of_isLeast hleast]
    rfl

theorem block?_eq_none_iff {start : Nat}
    : block? role pieces start = none ↔ closings role pieces (start + 1) = ∅ := by
  rw [block?, Option.map_eq_none_iff]
  constructor
  · intro h
    rcases closings_cases role pieces (start + 1) with he | ⟨index, hleast⟩
    · exact he
    · rw [markersFrom?_of_isLeast hleast] at h
      cases h
  · exact markersFrom?_of_closings_eq_empty

/-- The pieces on both sides of one among those from `first` on. -/
theorem extract_of_drop_eq_append {inside behind : List Piece}
    (h : pieces.drop first = inside ++ piece :: behind)
    : pieces.extract first (first + inside.length) = inside
      ∧ pieces[first + inside.length]? = some piece
      ∧ pieces.drop (first + inside.length + 1) = behind := by
  refine ⟨?_, ?_, ?_⟩
  · rw [List.extract_eq_take_drop, h, Nat.add_sub_cancel_left, List.take_left]
  · rw [← List.getElem?_drop, h, List.getElem?_append_right le_rfl, Nat.sub_self]
    rfl
  · rw [Nat.add_assoc, ← List.drop_drop, h, ← List.drop_drop, List.drop_left]
    rfl

/-- The search finds something exactly where the block is closed. -/
theorem isSome_markersFrom? {opens ends : Tag → Bool} {depth : Nat}
    (ho : ∀ tag, opens tag ↔ role tag = .opening) (he : ∀ tag, ends tag ↔ role tag = .ending)
    : (markersFrom? role place depth rest).isSome = closes opens ends depth rest := by
  induction rest generalizing place depth with
  | nil => rfl
  | cons piece rest ih =>
      cases piece with
      | char c => simpa only [markersFrom?, roleBy, closes] using ih
      | tag found =>
          have hopens := ho found
          have hends := he found
          cases hr : role found with
          | opening => simpa [markersFrom?, closes, roleBy, hr, hopens] using ih
          | other => simpa [markersFrom?, closes, roleBy, hr, hopens, hends] using ih
          | part =>
              cases depth <;> simpa [markersFrom?, closes, roleBy, hr, hopens, hends] using ih
          | ending =>
              cases depth with
              | zero => simp [markersFrom?, closes, roleBy, hr, hopens, hends]
              | succ depth => simpa [markersFrom?, closes, roleBy, hr, hopens, hends] using ih

end Piece

end ReportTemplate.Template
