import ReportTemplate.Proofs.Template.Literal
import ReportTemplate.Proofs.Text.Blank

/-! Tags are read locally.
A tag is read by nothing behind its closing mark, so pieces that stand between others are found
again when their text is scanned alone.
-/

namespace ReportTemplate.Template

namespace Tag

-----------------------------------------------------------------------------------------
-- The texts of tags
-----------------------------------------------------------------------------------------

/-- The text in front of a first closing mark, by induction on the text in each direction. -/
theorem beforeEnd?_eq_some_iff {text inside : List Char}
    : beforeEnd? text = some inside
      ↔ ¬ ['%', '\x7d'] <:+: inside ∧ ∃ rest, text = inside ++ '%' :: '\x7d' :: rest := by
  constructor
  · intro h
    refine ⟨?_, eq_of_beforeEnd? h⟩
    induction text using beforeEnd?.induct generalizing inside with
    | case1 => cases h
    | case2 rest =>
        rw [beforeEnd?] at h
        obtain rfl := Option.some.inj h
        decide
    | case3 c text hne ih =>
        rw [beforeEnd?, Option.map_eq_some_iff] at h
        · obtain ⟨tail, ht, rfl⟩ := h
          intro hi
          rcases List.infix_cons_iff.mp hi with hp | hi
          · obtain ⟨after, he⟩ := hp
            obtain ⟨rfl, rfl⟩ := List.cons.inj he
            obtain ⟨rest, rfl⟩ := eq_of_beforeEnd? ht
            exact hne _ rfl rfl
          · exact ih ht hi
        · exact hne
  · rintro ⟨hm, rest, rfl⟩
    induction inside with
    | nil => rfl
    | cons c inside ih =>
        have hi := ih fun hi => hm (hi.trans (List.suffix_cons c inside).isInfix)
        rw [List.cons_append, beforeEnd?, hi]
        · rfl
        · rintro after rfl he
          cases inside with
          | nil => cases he
          | cons d inside =>
              obtain ⟨rfl, -⟩ := List.cons.inj he
              exact hm (List.IsPrefix.isInfix ⟨inside, rfl⟩)

/-- What stands between the keyword of a tag and its closing mark: it does not go on with the
word, holds no closing mark, and is on one line but for blanks at its ends.
-/
structure IsInside (inside : List Char) : Prop where
  word : ∀ c ∈ inside.head?, Text.isWordChar c = false
  mark : ¬ ['%', '\x7d'] <:+: inside
  line : '\n' ∉ Text.trim inside

theorem keyword?_append {behind : List Char} (h : ∀ c ∈ behind.head?, Text.isWordChar c = false)
    (kind : TagKind)
    : keyword? (kind.keyword ++ behind) = some (kind, behind) := by
  have hword : ∀ c ∈ kind.keyword, Text.isWordChar c = true :=
    List.all_eq_true.mp (keyword_isWord kind)
  have hfind : TagKind.all.find? (fun other => other.keyword = kind.keyword) = some kind := by
    cases kind <;> decide
  have hstop : behind.takeWhile Text.isWordChar = []
      ∧ behind.dropWhile Text.isWordChar = behind := by
    cases behind with
    | nil => exact ⟨rfl, rfl⟩
    | cons c behind => simp [h c rfl]
  rw [keyword?_eq, List.takeWhile_append_of_pos hword, List.dropWhile_append_of_pos hword, hstop.1,
    hstop.2, List.append_nil, hfind]
  rfl

/-- The tags at the start of a text, in terms of their own text only. -/
theorem read?_eq_some_iff {text : List Char} {tag : Tag}
    : read? text = some tag
      ↔ ∃ blanks kind inside rest, blanks.all Text.isBlank = true ∧ IsInside inside
        ∧ tag = ⟨kind, Text.trim inside, sourceOf blanks kind inside⟩
        ∧ text = tag.source ++ rest := by
  constructor
  · intro h
    unfold read? at h
    split at h
    case h_2 => cases h
    case h_1 text =>
      simp only [Option.bind_eq_bind, Option.bind_eq_some_iff] at h
      obtain ⟨⟨kind, behind⟩, hk, inside, he, h⟩ := h
      split at h
      · cases h
      · next hline =>
        obtain ⟨hmark, rest, rfl⟩ := beforeEnd?_eq_some_iff.mp he
        have hbehind := eq_of_keyword? hk
        have hword : ∀ c ∈ inside.head?, Text.isWordChar c = false := by
          intro c hc
          rw [keyword?_eq, Option.map_eq_some_iff] at hk
          obtain ⟨_, -, hb⟩ := hk
          have hhead := List.head?_dropWhile_not Text.isWordChar (text.dropWhile Text.isBlank)
          rw [(Prod.mk.inj hb).2, List.head?_append, Option.mem_def.mp hc] at hhead
          exact hhead
        refine ⟨text.takeWhile Text.isBlank, kind, inside, rest, List.all_takeWhile,
          ⟨hword, hmark, by simpa using hline⟩, (Option.some.inj h).symm, ?_⟩
        have ht : text
            = text.takeWhile Text.isBlank
              ++ (kind.keyword ++ (inside ++ '%' :: '\x7d' :: rest)) := by
          rw [← hbehind, List.takeWhile_append_dropWhile]
        rw [← Option.some.inj h, sourceOf]
        conv => lhs; rw [ht]
        simp
  · rintro ⟨blanks, kind, inside, rest, hb, hi, rfl, rfl⟩
    have hblank : ∀ c ∈ blanks, Text.isBlank c = true := List.all_eq_true.mp hb
    have hstop : ∀ behind,
        (kind.keyword ++ behind).takeWhile Text.isBlank = []
          ∧ (kind.keyword ++ behind).dropWhile Text.isBlank = kind.keyword ++ behind := by
      intro behind
      cases kind <;> exact ⟨rfl, rfl⟩
    have hword : ∀ c ∈ (inside ++ '%' :: '\x7d' :: rest).head?, Text.isWordChar c = false := by
      cases inside with
      | nil => simp [Text.isWordChar]
      | cons c inside => exact hi.word
    have htext : sourceOf blanks kind inside ++ rest
        = '\x7b' :: '%' :: (blanks ++ (kind.keyword ++ (inside ++ '%' :: '\x7d' :: rest))) := by
      simp [sourceOf]
    rw [htext, read?, List.takeWhile_append_of_pos hblank, List.dropWhile_append_of_pos hblank,
      (hstop _).1, (hstop _).2, keyword?_append hword]
    simp [beforeEnd?_eq_some_iff.mpr ⟨hi.mark, rest, rfl⟩, hi.line]

variable {text : List Char} {tag : Tag}

theorem read?_append (h : read? text = some tag) (rest : List Char)
    : read? (text ++ rest) = some tag := by
  obtain ⟨blanks, kind, inside, behind, hb, hi, rfl, rfl⟩ := read?_eq_some_iff.mp h
  exact read?_eq_some_iff.mpr
    ⟨blanks, kind, inside, behind ++ rest, hb, hi, rfl, List.append_assoc _ _ _⟩

theorem read?_source_append (h : read? text = some tag) (rest : List Char)
    : read? (tag.source ++ rest) = some tag := by
  obtain ⟨blanks, kind, inside, behind, hb, hi, rfl, rfl⟩ := read?_eq_some_iff.mp h
  exact read?_eq_some_iff.mpr ⟨blanks, kind, inside, rest, hb, hi, rfl, rfl⟩

/-- What an argument is like: trimmed, on one line, and without a closing mark. -/
structure IsArgument (argument : List Char) : Prop where
  trimmed : Text.trim argument = argument
  line : '\n' ∉ argument
  mark : ¬ ['%', '\x7d'] <:+: argument

theorem isArgument_of_read? (h : read? text = some tag) : IsArgument tag.argument := by
  obtain ⟨blanks, kind, inside, behind, hb, hi, rfl, rfl⟩ := read?_eq_some_iff.mp h
  exact ⟨Text.trim_trim inside, hi.line, fun hm => hi.mark (hm.trans (Text.trim_infix inside))⟩

end Tag

namespace Piece

-----------------------------------------------------------------------------------------
-- The scan of a text between others
-----------------------------------------------------------------------------------------

variable {text : List Char} {piece : Piece} {pieces left middle right : List Piece}

/-- The pieces behind the first one are those of the text behind its source. -/
theorem eq_source_append_of_scan (h : scan text = piece :: pieces)
    : ∃ behind, text = piece.source ++ behind ∧ scan behind = pieces
      ∧ (∀ c, piece = .char c → Tag.read? text = none)
      ∧ ∀ tag, piece = .tag tag → Tag.read? text = some tag := by
  cases text with
  | nil => cases h
  | cons c text =>
      cases hr : Tag.read? (c :: text) with
      | none =>
          rw [scan_cons_of_read?_eq_none hr] at h
          obtain ⟨rfl, hs⟩ := List.cons.inj h
          exact ⟨text, rfl, hs, fun _ _ => rfl, nofun⟩
      | some tag =>
          obtain ⟨behind, he, hne⟩ := Tag.eq_source_append_of_read? hr
          rw [he] at hr
          rw [he, scan_append_of_read? hne behind hr] at h
          obtain ⟨rfl, hs⟩ := List.cons.inj h
          refine ⟨behind, he, hs, nofun, ?_⟩
          rintro _ he
          rw [Piece.tag.inj he]

/-- Pieces behind others are found again when their text is scanned alone, by induction on the
others.
-/
theorem scan_flatMap_right (h : scan text = left ++ right)
    : scan (right.flatMap source) = right := by
  induction left generalizing text with
  | nil =>
      rw [List.nil_append] at h
      rw [← h, flatMap_source_scan]
  | cons piece left ih =>
      obtain ⟨behind, -, hs, -⟩ := eq_source_append_of_scan h
      exact ih hs

/-- Pieces in front of others are found again when their text is scanned alone, by induction on
the pieces: a tag is read by nothing behind it, and where none is read with a text behind, none is
read without it.
-/
theorem scan_flatMap_left (h : scan text = left ++ right)
    : scan (left.flatMap source) = left := by
  induction left generalizing text with
  | nil => rfl
  | cons piece left ih =>
      obtain ⟨behind, rfl, hs, hchar, htag⟩ := eq_source_append_of_scan h
      rw [List.flatMap_cons]
      cases piece with
      | char c =>
          have hb : behind = left.flatMap source ++ right.flatMap source := by
            rw [← List.flatMap_append, ← List.append_eq, ← hs, flatMap_source_scan]
          have hr : Tag.read? (c :: left.flatMap source) = none := by
            refine Option.eq_none_iff_forall_ne_some.mpr ?_
            intro tag hr
            have hlong := Tag.read?_append hr (right.flatMap source)
            have hnone := hchar c rfl
            rw [hb] at hnone
            exact absurd (hlong.symm.trans hnone) (by simp)
          rw [source, List.singleton_append, scan_cons_of_read?_eq_none hr, ih hs]
      | tag tag =>
          have hr := Tag.read?_source_append (htag tag rfl) (left.flatMap source)
          obtain ⟨_, -, hne⟩ := Tag.eq_source_append_of_read? hr
          rw [source, scan_append_of_read? hne _ hr, ih hs]

/-- Pieces between others are found again when their text is scanned alone. -/
theorem scan_flatMap_infix (h : middle <:+: scan text)
    : scan (middle.flatMap source) = middle := by
  obtain ⟨left, right, hs⟩ := h
  rw [List.append_assoc] at hs
  exact scan_flatMap_left (scan_flatMap_right hs.symm)

/-- Every tag among the pieces of a text has been read. -/
theorem exists_read?_of_mem_scan {tag : Tag} (h : .tag tag ∈ scan text)
    : ∃ rest, Tag.read? (tag.source ++ rest) = some tag := by
  obtain ⟨left, right, hs⟩ := List.append_of_mem h
  have hright := scan_flatMap_right hs
  obtain ⟨behind, he, -, -, htag⟩ := eq_source_append_of_scan hright
  have hr := htag tag rfl
  rw [he] at hr
  exact ⟨behind, hr⟩

end Piece

end ReportTemplate.Template
