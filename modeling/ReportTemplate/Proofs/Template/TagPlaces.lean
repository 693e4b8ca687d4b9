import ReportTemplate.Proofs.Template.BlockMatching
import ReportTemplate.Proofs.Template.TagLocality

/-! The places of tags in a text.
Tags stand one behind another, and the text between two of them holds the tags between them and no
others. So the bodies of blocks, cut out of the text between tags and scanned again, are made of
the pieces that the blocks were found in. Places are counted in characters.
-/

namespace ReportTemplate.Template

/-- A tag with the place where it starts and the place behind it. -/
structure PlacedTag where
  tag : Tag
  start : Nat
  stop : Nat
  deriving DecidableEq, Repr

def PlacedTag.shift (count : Nat) (placed : PlacedTag) : PlacedTag :=
  ⟨placed.tag, count + placed.start, count + placed.stop⟩

namespace Piece

/-- The tags among pieces of which the first starts at `start`. -/
def placeFrom : Nat → List Piece → List PlacedTag
  | _, [] => []
  | start, .char _ :: pieces => placeFrom (start + 1) pieces
  | start, .tag found :: pieces =>
      ⟨found, start, start + found.source.length⟩
        :: placeFrom (start + found.source.length) pieces

end Piece

/-- The tags of a text, by one scan. -/
def tagsIn (text : List Char) : List PlacedTag :=
  Piece.placeFrom 0 (Piece.scan text)

namespace Piece

-----------------------------------------------------------------------------------------
-- Places
-----------------------------------------------------------------------------------------

/-- The length of the text of pieces. -/
def extent (pieces : List Piece) : Nat :=
  (pieces.flatMap source).length

variable {text : List Char} {pieces : List Piece} {piece : Piece} {first last start : Nat}

theorem extent_cons (piece : Piece) (pieces : List Piece)
    : extent (piece :: pieces) = piece.source.length + extent pieces := by
  simp [extent]

theorem extent_append (left right : List Piece)
    : extent (left ++ right) = extent left + extent right := by
  simp [extent]

theorem extent_scan (text : List Char) : extent (scan text) = text.length := by
  rw [extent, flatMap_source_scan]

theorem placeFrom_append (start : Nat) (left right : List Piece)
    : placeFrom start (left ++ right)
      = placeFrom start left ++ placeFrom (start + extent left) right := by
  induction left generalizing start with
  | nil => rfl
  | cons piece left ih =>
      rw [extent_cons, ← Nat.add_assoc]
      cases piece with
      | char c => exact ih (start + 1)
      | tag tag => exact congrArg _ (ih (start + tag.source.length))

theorem placeFrom_add (count start : Nat) (pieces : List Piece)
    : placeFrom (count + start) pieces = (placeFrom start pieces).map (PlacedTag.shift count) := by
  induction pieces generalizing start with
  | nil => rfl
  | cons piece pieces ih =>
      cases piece with
      | char c => exact ih (start + 1)
      | tag tag =>
          rw [placeFrom, placeFrom, List.map_cons, ← ih, PlacedTag.shift, Nat.add_assoc]

/-- A tag among the placed ones parts the pieces as it parts the placed tags, by induction on the
pieces.
-/
theorem exists_of_placeFrom {placed : PlacedTag} {before behind : List PlacedTag}
    (h : placeFrom start pieces = before ++ placed :: behind)
    : ∃ left right, pieces = left ++ .tag placed.tag :: right
      ∧ before = placeFrom start left ∧ behind = placeFrom placed.stop right
      ∧ placed.start = start + extent left
      ∧ placed.stop = placed.start + placed.tag.source.length := by
  induction pieces generalizing start before with
  | nil => simp [placeFrom] at h
  | cons piece pieces ih =>
      cases piece with
      | char c =>
          obtain ⟨left, right, rfl, hb, hr, hs, hp⟩ := ih h
          refine ⟨.char c :: left, right, rfl, hb, hr, ?_, hp⟩
          rw [hs, extent_cons, Nat.add_assoc]
          rfl
      | tag tag =>
          cases before with
          | nil =>
              obtain ⟨rfl, rfl⟩ := List.cons.inj h
              exact ⟨[], pieces, rfl, rfl, rfl, rfl, rfl⟩
          | cons other before =>
              obtain ⟨rfl, ht⟩ := List.cons.inj h
              obtain ⟨left, right, rfl, hb, hr, hs, hp⟩ := ih ht
              refine ⟨.tag tag :: left, right, rfl, congrArg _ hb, hr, ?_, hp⟩
              rw [hs, extent_cons, Nat.add_assoc]
              rfl

/-- The text between two rows of pieces is that of the pieces between them. -/
theorem extract_of_scan {left middle right : List Piece} (h : scan text = left ++ (middle ++ right))
    : text.extract (extent left) (extent left + extent middle) = middle.flatMap source := by
  have ht : text = left.flatMap source ++ (middle.flatMap source ++ right.flatMap source) := by
    rw [← List.flatMap_append, ← List.flatMap_append, ← h, flatMap_source_scan]
  rw [List.extract_eq_take_drop, Nat.add_sub_cancel_left, extent, extent, ht, List.drop_left,
    List.take_left]

/-- The text between two rows of pieces holds the tags between them and no others. -/
theorem tagsIn_extract {left middle right : List Piece} (h : scan text = left ++ (middle ++ right))
    : (tagsIn (text.extract (extent left) (extent left + extent middle))).map
        (PlacedTag.shift (extent left))
      = placeFrom (extent left) middle := by
  have hm : middle <:+: scan text := ⟨left, right, by rw [h, List.append_assoc]⟩
  rw [extract_of_scan h, tagsIn, scan_flatMap_infix hm, ← placeFrom_add, Nat.add_zero]

/-- A tag of a text stands at its place, and its argument is one. -/
theorem isPlaced_of_mem {placed : PlacedTag} (h : placed ∈ tagsIn text)
    : placed.start < placed.stop ∧ placed.stop ≤ text.length
      ∧ text.extract placed.start placed.stop = placed.tag.source
      ∧ Tag.IsArgument placed.tag.argument := by
  obtain ⟨before, behind, hs⟩ := List.append_of_mem h
  obtain ⟨left, right, hp, -, -, hstart, hstop⟩ := exists_of_placeFrom hs
  have hmem : .tag placed.tag ∈ scan text := by
    rw [hp]
    simp
  obtain ⟨rest, hr⟩ := exists_read?_of_mem_scan hmem
  obtain ⟨-, -, hne⟩ := Tag.eq_source_append_of_read? hr
  have hpos : 0 < placed.tag.source.length := List.length_pos_iff.mpr hne
  have hlength : extent left + (placed.tag.source.length + extent right) = text.length := by
    rw [← extent_scan text, hp, extent_append, extent_cons, source]
  have hsplit : scan text = left ++ ([.tag placed.tag] ++ right) := hp
  have hextract := extract_of_scan hsplit
  refine ⟨by omega, by omega, ?_, Tag.isArgument_of_read? hr⟩
  rw [hstop, hstart, Nat.zero_add]
  simpa [extent, source] using hextract

/-- Tags stand one behind another, by induction on the pieces. -/
theorem pairwise_placeFrom (start : Nat) (pieces : List Piece)
    : (∀ placed ∈ placeFrom start pieces, start ≤ placed.start)
      ∧ (placeFrom start pieces).Pairwise (fun earlier later => earlier.stop ≤ later.start) := by
  induction pieces generalizing start with
  | nil => exact ⟨nofun, .nil⟩
  | cons piece pieces ih =>
      cases piece with
      | char c =>
          obtain ⟨hle, hpair⟩ := ih (start + 1)
          exact ⟨fun placed hm => (Nat.le_succ start).trans (hle placed hm), hpair⟩
      | tag tag =>
          obtain ⟨hle, hpair⟩ := ih (start + tag.source.length)
          refine ⟨?_, .cons hle hpair⟩
          intro placed hm
          rcases List.mem_cons.mp hm with he | hm
          · rw [he]
          · exact (Nat.le_add_right start _).trans (hle placed hm)

-----------------------------------------------------------------------------------------
-- Slices between places
-----------------------------------------------------------------------------------------

/-- The place in the text of the piece at an index. -/
def placeOf (pieces : List Piece) (index : Nat) : Nat :=
  extent (pieces.take index)

/-- The tag at an index, with its places. -/
def placedAt (pieces : List Piece) (index : Nat) (tag : Tag) : PlacedTag :=
  ⟨tag, placeOf pieces index, placeOf pieces (index + 1)⟩

theorem placeOf_succ (h : pieces[first]? = some piece)
    : placeOf pieces (first + 1) = placeOf pieces first + piece.source.length := by
  rw [placeOf, placeOf, List.take_add_one, h, extent_append]
  simp [extent]

theorem placeOf_le (h : first ≤ last) : placeOf pieces first ≤ placeOf pieces last := by
  obtain ⟨count, rfl⟩ := Nat.exists_eq_add_of_le h
  rw [placeOf, placeOf, List.take_add, extent_append]
  exact Nat.le_add_right _ _

theorem placedAt_mem {tag : Tag} (h : pieces[first]? = some (.tag tag))
    : placedAt pieces first tag ∈ placeFrom 0 pieces := by
  have hs : placeFrom 0 pieces
      = placeFrom 0 (pieces.take first)
        ++ placeFrom (placeOf pieces first) (.tag tag :: pieces.drop (first + 1)) := by
    rw [← drop_of_getElem? h, placeOf, ← Nat.zero_add (extent _), ← placeFrom_append,
      List.take_append_drop]
  rw [hs, placedAt, placeOf_succ h, placeFrom]
  simp [source]

/-- The text between two places is that of the pieces between their indices, and they are what is
found when it is scanned alone.
-/
theorem scan_extract (text : List Char) (h : first ≤ last)
    : text.extract (placeOf (scan text) first) (placeOf (scan text) last)
        = ((scan text).extract first last).flatMap source
      ∧ scan (text.extract (placeOf (scan text) first) (placeOf (scan text) last))
        = (scan text).extract first last := by
  have htake : (scan text).take last
      = (scan text).take first ++ (scan text).extract first last := by
    obtain ⟨count, rfl⟩ := Nat.exists_eq_add_of_le h
    rw [List.take_add, List.extract_eq_take_drop, Nat.add_sub_cancel_left]
  have hs : scan text
      = (scan text).take first ++ ((scan text).extract first last ++ (scan text).drop last) := by
    rw [← List.append_assoc, ← htake, List.take_append_drop]
  have hm : (scan text).extract first last <:+: scan text :=
    ⟨(scan text).take first, (scan text).drop last, by rw [List.append_assoc, ← hs]⟩
  have he := extract_of_scan hs
  rw [placeOf, placeOf, htake, extent_append, he]
  exact ⟨rfl, scan_flatMap_infix hm⟩

theorem extract_source (h : (scan text)[first]? = some piece)
    : text.extract (placeOf (scan text) first) (placeOf (scan text) first + piece.source.length)
      = piece.source := by
  have hone : (scan text).extract first (first + 1) = [piece] := by
    rw [extract_succ le_rfl h]
    simp
  rw [← placeOf_succ h, (scan_extract text (Nat.le_succ first)).1, hone, List.flatMap_singleton]

end Piece

namespace LoopPart

/-- The parts of a text from a place on, each with the slice that it stands for. The body of a loop
is what is found in the slice between its tags, scanned alone.
-/
inductive Slices (text : List Char) : Nat → List LoopPart → Prop where
  | done : Slices text text.length []
  | piece {start : Nat} {found : Piece} {parts : List LoopPart}
      (slice : text.extract start (start + found.source.length) = found.source)
      (behind : Slices text (start + found.source.length) parts)
      : Slices text start (.piece found :: parts)
  | unclosed {opening : PlacedTag} {parts : List LoopPart} (found : opening ∈ tagsIn text)
      (behind : Slices text opening.stop parts)
      : Slices text opening.start (.unclosed opening.tag :: parts)
  | loop {opening closing : PlacedTag} {header : Header} {parts : List LoopPart}
      (found : opening ∈ tagsIn text) (ended : closing ∈ tagsIn text)
      (read : Header.read? opening.tag.argument = some header) (kind : closing.tag.kind = .forEnd)
      (order : opening.stop ≤ closing.start)
      (behind : Slices text closing.stop parts)
      : Slices text opening.start
          (.loop header (ofPieces (Piece.scan (text.extract opening.stop closing.start))) :: parts)

/-- The parts found from an index on stand for the text from its place on, by induction on the
count of pieces left.
-/
theorem slices_ofPieces (text : List Char) {start : Nat} (h : start ≤ (Piece.scan text).length)
    : Slices text (Piece.placeOf (Piece.scan text) start)
        (ofPieces ((Piece.scan text).drop start)) := by
  induction hcount : (Piece.scan text).length - start using Nat.strong_induction_on
    generalizing start with
  | _ count ih =>
      rcases h.eq_or_lt with he | hlt
      · rw [he, List.drop_length, Piece.placeOf, List.take_length, Piece.extent_scan]
        exact .done
      · have hp : (Piece.scan text)[start]? = some (Piece.scan text)[start] :=
          List.getElem?_eq_getElem hlt
        have hbehind := ih ((Piece.scan text).length - (start + 1)) (by omega) hlt rfl
        generalize (Piece.scan text)[start] = piece at hp
        by_cases hr : piece.roleBy Tag.loopRole = .opening
        · cases piece with
          | char c => cases hr
          | tag tag =>
              obtain ⟨header, hk, hh⟩ := exists_header_of_opening hr
              have hopen := Piece.placedAt_mem hp
              cases hm : Piece.markersFrom? Tag.loopRole (start + 1) 0
                  ((Piece.scan text).drop (start + 1)) with
              | none =>
                  rw [ofPieces_of_markersFrom?_eq_none hp hk hh hm]
                  exact .unclosed hopen hbehind
              | some places =>
                  obtain ⟨index, closing, -, hlt, hc, hkind, heq⟩ :=
                    ofPieces_of_markersFrom? hp hk hh hm
                  have hindex : index < (Piece.scan text).length :=
                    (List.getElem?_eq_some_iff.mp hc).1
                  rw [heq, ← (Piece.scan_extract text hlt).2]
                  exact .loop hopen (Piece.placedAt_mem hc) hh hkind (Piece.placeOf_le hlt)
                    (ih ((Piece.scan text).length - (index + 1)) (by omega) hindex rfl)
        · rw [Piece.drop_of_getElem? hp, ofPieces_cons hr]
          rw [Piece.placeOf_succ hp] at hbehind
          exact .piece (Piece.extract_source hp) hbehind

end LoopPart

namespace ChoicePart

/-- The branches between two tags of a choice, each with its tag and what is found in the slice
between it and the next tag, scanned alone.
-/
inductive BranchSlices (text : List Char)
    : PlacedTag → PlacedTag → List (Tag × List ChoicePart) → Prop where
  | last {head closing : PlacedTag} (found : head ∈ tagsIn text) (order : head.stop ≤ closing.start)
      : BranchSlices text head closing
          [(head.tag, ofPieces (Piece.scan (text.extract head.stop closing.start)))]
  | more {head next closing : PlacedTag} {branches : List (Tag × List ChoicePart)}
      (found : head ∈ tagsIn text) (order : head.stop ≤ next.start)
      (others : BranchSlices text next closing branches)
      : BranchSlices text head closing
          ((head.tag, ofPieces (Piece.scan (text.extract head.stop next.start))) :: branches)

/-- The parts of a text from a place on, each with the slice that it stands for. -/
inductive Slices (text : List Char) : Nat → List ChoicePart → Prop where
  | done : Slices text text.length []
  | piece {start : Nat} {found : Piece} {parts : List ChoicePart}
      (slice : text.extract start (start + found.source.length) = found.source)
      (behind : Slices text (start + found.source.length) parts)
      : Slices text start (.piece found :: parts)
  | unclosed {opening : PlacedTag} {parts : List ChoicePart} (found : opening ∈ tagsIn text)
      (behind : Slices text opening.stop parts)
      : Slices text opening.start (.unclosed opening.tag :: parts)
  | choice {opening closing : PlacedTag} {branches : List (Tag × List ChoicePart)}
      {parts : List ChoicePart} (kind : opening.tag.kind = .ifStart)
      (slices : BranchSlices text opening closing branches)
      (ended : closing ∈ tagsIn text) (closes : closing.tag.kind = .ifEnd)
      (behind : Slices text closing.stop parts)
      : Slices text opening.start (.choice branches :: parts)

/-- Branches between neighbouring indices stand for the slices between their tags, by induction on
the indices.
-/
theorem branchSlices_of_isBranch {text : List Char} {start index : Nat} {places : List Nat}
    {head closing : Tag} {branches : List (Tag × List ChoicePart)}
    (h : List.Forall₂ (IsBranch (Piece.scan text)) ((start :: places).zip places) branches)
    (hh : (Piece.scan text)[start]? = some (.tag head)) (hl : places.getLast? = some index)
    : BranchSlices text (Piece.placedAt (Piece.scan text) start head)
        (Piece.placedAt (Piece.scan text) index closing) branches := by
  induction places generalizing start head branches with
  | nil => cases hl
  | cons next places ih =>
      rw [List.zip_cons_cons] at h
      cases h with
      | @cons _ branch _ others hb ho =>
          obtain ⟨tag, body⟩ := branch
          have hlt : start + 1 ≤ next := hb.order
          have htag : tag = head := Piece.tag.inj (Option.some.inj (hb.head.symm.trans hh))
          have hbody : body = ofPieces (Piece.scan (text.extract
              (Piece.placeOf (Piece.scan text) (start + 1))
              (Piece.placeOf (Piece.scan text) next))) := by
            rw [(Piece.scan_extract text hlt).2]
            exact hb.body
          subst htag hbody
          cases places with
          | nil =>
              obtain rfl := Option.some.inj hl
              cases ho
              exact .last (Piece.placedAt_mem hh) (Piece.placeOf_le hlt)
          | cons further places =>
              have hnext : ∃ other, (Piece.scan text)[next]? = some (.tag other) := by
                rw [List.zip_cons_cons] at ho
                cases ho with
                | cons hb _ => exact ⟨_, hb.head⟩
              obtain ⟨other, hnext⟩ := hnext
              rw [List.getLast?_cons_cons] at hl
              refine .more (Piece.placedAt_mem hh) ?_ (ih ho hnext hl)
              exact Piece.placeOf_le hlt

/-- The parts found from an index on stand for the text from its place on, by induction on the
count of pieces left.
-/
theorem slices_ofPieces (text : List Char) {start : Nat} (h : start ≤ (Piece.scan text).length)
    : Slices text (Piece.placeOf (Piece.scan text) start)
        (ofPieces ((Piece.scan text).drop start)) := by
  induction hcount : (Piece.scan text).length - start using Nat.strong_induction_on
    generalizing start with
  | _ count ih =>
      rcases h.eq_or_lt with he | hlt
      · rw [he, List.drop_length, Piece.placeOf, List.take_length, Piece.extent_scan]
        exact .done
      · have hp : (Piece.scan text)[start]? = some (Piece.scan text)[start] :=
          List.getElem?_eq_getElem hlt
        have hbehind := ih ((Piece.scan text).length - (start + 1)) (by omega) hlt rfl
        generalize (Piece.scan text)[start] = piece at hp
        by_cases hr : piece.roleBy Tag.choiceRole = .opening
        · cases piece with
          | char c => cases hr
          | tag tag =>
              have hk : tag.kind = .ifStart := by
                simpa [Tag.opensChoice] using (opensChoice_iff tag).mpr hr
              cases hm : Piece.markersFrom? Tag.choiceRole (start + 1) 0
                  ((Piece.scan text).drop (start + 1)) with
              | none =>
                  rw [ofPieces_of_markersFrom?_eq_none hp hk hm]
                  exact .unclosed (Piece.placedAt_mem hp) hbehind
              | some places =>
                  obtain ⟨index, closing, branches, hlast, hlt, hc, hkind, hw, heq⟩ :=
                    ofPieces_of_markersFrom? hp hk hm
                  have hindex : index < (Piece.scan text).length :=
                    (List.getElem?_eq_some_iff.mp hc).1
                  have hclosing := Piece.placedAt_mem hc
                  rw [heq]
                  exact .choice hk (branchSlices_of_isBranch hw hp hlast) hclosing hkind
                    (ih ((Piece.scan text).length - (index + 1)) (by omega) hindex rfl)
        · rw [Piece.drop_of_getElem? hp, ofPieces_cons hr]
          rw [Piece.placeOf_succ hp] at hbehind
          exact .piece (Piece.extract_source hp) hbehind

end ChoicePart

-----------------------------------------------------------------------------------------
-- Scanning is ordered and local
-----------------------------------------------------------------------------------------

/-- Scanning for tags is ordered and local, for every text. Each tag has a range of its own in the
text, with its source there, and an argument that is trimmed, on one line and without a closing
mark; tags end before the later ones start. The text between any two tags holds the tags between
them, shifted by where it starts, and no others. So what the searches find stands for slices of
the text between tags in order, and the body of every block is what is found in its slice alone.
-/
theorem tagsIn_isLocal (text : List Char)
    : (∀ placed ∈ tagsIn text, placed.start < placed.stop ∧ placed.stop ≤ text.length
        ∧ text.extract placed.start placed.stop = placed.tag.source
        ∧ Tag.IsArgument placed.tag.argument)
      ∧ (tagsIn text).Pairwise (fun earlier later => earlier.stop ≤ later.start)
      ∧ (∀ before first between last behind,
        tagsIn text = before ++ first :: (between ++ last :: behind)
        → first.stop ≤ last.start
          ∧ (tagsIn (text.extract first.stop last.start)).map (PlacedTag.shift first.stop)
            = between)
      ∧ LoopPart.Slices text 0 (LoopPart.ofPieces (Piece.scan text))
      ∧ ChoicePart.Slices text 0 (ChoicePart.ofPieces (Piece.scan text)) := by
  refine ⟨fun placed hm => Piece.isPlaced_of_mem hm, (Piece.pairwise_placeFrom 0 _).2, ?_,
    LoopPart.slices_ofPieces text (Nat.zero_le _), ChoicePart.slices_ofPieces text (Nat.zero_le _)⟩
  intro before first between last behind h
  obtain ⟨left, rest, hp, -, hbetween, hstart, hstop⟩ := Piece.exists_of_placeFrom h
  obtain ⟨middle, right, rfl, hm, -, hlast, -⟩ := Piece.exists_of_placeFrom hbetween.symm
  have hs : Piece.scan text
      = (left ++ [.tag first.tag]) ++ (middle ++ .tag last.tag :: right) := by
    rw [hp, List.append_assoc]
    rfl
  have hextent : Piece.extent (left ++ [.tag first.tag]) = first.stop := by
    rw [Piece.extent_append, hstop, hstart, Nat.zero_add]
    simp [Piece.extent, Piece.source]
  have hlocal := Piece.tagsIn_extract hs
  rw [hextent, ← hlast] at hlocal
  exact ⟨by omega, hlocal.trans hm.symm⟩

/-- A text with marks at the borders of its tags, and a choice opened inside a loop. -/
def borderedText : List Char :=
  ("\x7b%\x7b% for x in xs %\x7d%\x7d\x7b%if a%\x7d"
    ++ "\x7b% endfor %\x7d%\x7d\x7b% endif %\x7d").toList

/-- Marks at the borders of tags make no further tag, and the tag between two others is found in
the text between them.
-/
theorem tagsIn_borderedText
    : (tagsIn (borderedText.extract 19 29)).map (PlacedTag.shift 19)
        = [⟨⟨.ifStart, ['a'], "\x7b%if a%\x7d".toList⟩, 21, 29⟩]
      ∧ ChoicePart.Slices borderedText 0 (ChoicePart.ofPieces (Piece.scan borderedText)) := by
  obtain ⟨-, -, hlocal, -, hslices⟩ := tagsIn_isLocal borderedText
  have hbetween := hlocal []
    ⟨⟨.forStart, "x in xs".toList, "\x7b% for x in xs %\x7d".toList⟩, 2, 19⟩
    [⟨⟨.ifStart, ['a'], "\x7b%if a%\x7d".toList⟩, 21, 29⟩]
    ⟨⟨.forEnd, [], "\x7b% endfor %\x7d".toList⟩, 29, 41⟩
    [⟨⟨.ifEnd, [], "\x7b% endif %\x7d".toList⟩, 43, 54⟩] (by decide +kernel)
  exact ⟨hbetween.2, hslices⟩

end ReportTemplate.Template
