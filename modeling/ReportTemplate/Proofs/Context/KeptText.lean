import ReportTemplate.Engine
import ReportTemplate.Proofs.Context.Overriding
import ReportTemplate.Proofs.Number.Numeral
import ReportTemplate.Proofs.Template.OnePass
import ReportTemplate.Proofs.Template.Spelling

/-! Overrides whose value is kept as the text it is.
A value that is no literal word, no inline JSON and no numeral is bound as it stands, unless it
names a number that is not finite: the reader of numbers takes these names too.
-/

namespace ReportTemplate

open Condition

-----------------------------------------------------------------------------------------
-- Paths in templates
-----------------------------------------------------------------------------------------

/-- A path has no blanks around it, since none of its characters is one. -/
theorem Condition.IsPath.isBare {path : String} (h : IsPath path.toList)
    : Context.IsBare path := by
  obtain ⟨hne, hc⟩ := h.chars
  have hb : ∀ c ∈ path.toList, Text.isBlank c = false := fun c hm =>
    Text.isBlank_eq_false_of_test Token.isPathChar (by decide +kernel)
      (List.all_eq_true.mp hc c hm)
  exact ⟨hne, fun c hm => hb c (List.mem_of_head? hm), fun c hm => hb c (List.mem_of_getLast? hm)⟩

namespace Template

open Node

/-- A path alone is the expression that reads it. -/
theorem read?_path {path : String} (h : IsPath path.toList)
    : Expression.read? (' ' :: (path.toList ++ [' '])) = some ⟨.path path, []⟩ := by
  have hs : Spells (.path path) path.toList := by
    simpa using Spells.path h
  have hexpr : SpellsExpression ⟨.path path, []⟩ path.toList :=
    ⟨path.toList, [], hs, .nil, .last ⟨[], [], rfl, rfl, by simp⟩⟩
  have hspace : [' '].all Token.isSpace = true := rfl
  exact (hexpr.pad hspace hspace).read?_eq

/-- Between two spaces a path is a line without braces, by its characters. -/
theorem isPlainLine_of_isPath {path : List Char} (h : IsPath path)
    : isPlainLine (' ' :: (path ++ [' '])) = true := by
  have hmem : ∀ c, Token.isPathChar c = false → c ≠ ' ' → c ∉ ' ' :: (path ++ [' ']) := by
    intro c hf hs hm
    have hc := List.all_eq_true.mp h.chars.2 c (by simpa [hs] using hm)
    exact Bool.false_ne_true (hf.symm.trans hc)
  exact isPlainLine_iff.mpr
    ⟨hmem _ rfl (by decide), hmem _ rfl (by decide), hmem _ rfl (by decide)⟩

/-- A path in double braces becomes the text of the value at it. -/
theorem render_path (registry : Registry) {context : Context} {path : String}
    (hp : IsPath path.toList) {value : Value} (h : context.get? path = some value)
    : render registry context.toValue ("\x7b\x7b " ++ path ++ " \x7d\x7d").toList
      = pure value.outputChars := by
  have hw : AllWellNested [.braced (' ' :: (path.toList ++ [' ']))] :=
    ⟨⟨isPlainLine_of_isPath hp, by simp⟩, trivial⟩
  have hsource : ("\x7b\x7b " ++ path ++ " \x7d\x7d").toList
      = sourceAll [.braced (' ' :: (path.toList ++ [' ']))] := by
    simp [sourceAll, source, Fragment.source]
  have hvalue : { data := context.toValue : Scope }.resolve path = value := by
    rw [Scope.resolve, Context.resolve?_eq_get? context hp.isBare, h]
    rfl
  rw [hsource, render_nodes registry _ hw (by simp [loopTextsAll, loopTexts])]
  simp [unrollAll, unroll, chooseAll, choose, fillAll, fill, read?_path hp, Expression.eval,
    Operand.eval, hvalue, sourceAll, source]

end Template

namespace Context

open Value

-----------------------------------------------------------------------------------------
-- Values of no special form
-----------------------------------------------------------------------------------------

namespace Override

/-- Holds for values of none of the special forms: literal words, inline JSON and numerals. -/
structure IsPlain (value : String) : Prop where
  word : value ∉ ["true", "false", "null"]
  json : value.toList.head? ≠ some '[' ∧ value.toList.head? ≠ some '\x7b'
  numeral : ¬ Number.IsNumeral value.toList

instance (value : String) : Decidable (IsPlain value) :=
  decidable_of_iff (value ∉ ["true", "false", "null"]
    ∧ (value.toList.head? ≠ some '[' ∧ value.toList.head? ≠ some '\x7b')
    ∧ ¬ Number.IsNumeral value.toList)
    ⟨fun ⟨hw, hj, hn⟩ => ⟨hw, hj, hn⟩, fun ⟨hw, hj, hn⟩ => ⟨hw, hj, hn⟩⟩

/-- A plain value is a number if the reader of numbers takes it, and its text otherwise. -/
theorem readValue_of_isPlain {value : String} (h : IsPlain value)
    : readValue value = ((Number.float value.toList).map Value.number).getD (.string value) := by
  have hj : startsJson value.toList = false := by
    obtain ⟨hl, hm⟩ := h.json
    unfold startsJson
    split
    · next he => exact absurd (congrArg List.head? he) hl
    · next he => exact absurd (congrArg List.head? he) hm
    · rfl
  have hw := h.word
  unfold readValue
  split
  · simp at hw
  · simp at hw
  · simp at hw
  · rw [Number.int64_eq_none h.numeral]
    cases Number.float value.toList <;> simp [hj]

/-- A plain value that names no number is read as text. -/
theorem readValue_of_not_isNumberName {value : String} (h : IsPlain value)
    (hn : ¬ Number.IsNumberName value.toList)
    : readValue value = .string value := by
  have hf : ¬ (Number.float value.toList).isSome = true := by
    rw [Number.float_isSome_iff]
    exact not_or_intro h.numeral hn
  rw [readValue_of_isPlain h, Option.not_isSome_iff_eq_none.mp hf]
  rfl

/-- A plain value that names a number is read as one that is not finite. -/
theorem exists_readValue_of_isNumberName {value : String} (h : IsPlain value)
    (hn : Number.IsNumberName value.toList)
    : ∃ n, readValue value = .number n ∧ Number.isFinite n = false := by
  obtain ⟨n, hf, hi⟩ := Number.exists_float_of_isNumberName hn
  exact ⟨n, by rw [readValue_of_isPlain h, hf]; rfl, hi⟩

theorem readValue_eq_string_iff {value : String} (h : IsPlain value)
    : readValue value = .string value ↔ ¬ Number.IsNumberName value.toList := by
  refine ⟨fun hv hn => ?_, readValue_of_not_isNumberName h⟩
  obtain ⟨n, hr, -⟩ := exists_readValue_of_isNumberName h hn
  rw [hv] at hr
  simp at hr

end Override

-----------------------------------------------------------------------------------------
-- Values of overrides in contexts
-----------------------------------------------------------------------------------------

/-- A value that is no mapping is found in every context that its context is merged into. -/
theorem get?_merge_of_not_isMap (base : Context) {overrides : Context}
    (hd : overrides.toValue.HasDistinctKeys) {path : String} {value : Value}
    (h : overrides.get? path = some value) (hm : value.isMap = false)
    : (base.merge overrides).get? path = some value := by
  have hf := follow_overlay_of_some base.toValue hd h
  have hover : ∀ lower, overlayAt lower value = value := by
    refine fun lower => overlayAt_of_not_maps ?_
    rintro _ above - rfl
    simp [isMap] at hm
  rwa [← toValue_merge, hover] at hf

/-- An argument among others binds its path to its value, if those behind it are apart. -/
theorem exists_ofOverrides_append_cons {before after : List String} {earlier later : Context}
    (hbefore : ofOverrides before = .ok earlier) (hafter : ofOverrides after = .ok later)
    {argument : String} {change : Override} (hw : Override.IsWritten argument change)
    (ha : ∀ other ∈ after, ∀ next, Override.read other = .ok next → next.IsApart change)
    : ∃ overrides, ofOverrides (before ++ argument :: after) = .ok overrides
      ∧ overrides.toValue.HasDistinctKeys ∧ overrides.get? change.path = some change.value := by
  obtain ⟨firsts, hf, -⟩ := exists_of_ofOverrides hbefore
  obtain ⟨lasts, hl, -⟩ := exists_of_ofOverrides hafter
  have hall := List.rel_append hf (.cons hw hl)
  have hs : ({} : Context).setAll (firsts ++ change :: lasts)
      = ((({} : Context).setAll firsts).set change.path change.value).setAll lasts := by
    simp [setAll]
  refine ⟨_, ofOverrides_of_isWritten hall, ?_, ?_⟩
  · exact hasDistinctKeys_setAll hasDistinctKeys_empty (hasDistinctKeys_of_isWritten hall)
  · rw [hs]
    -- What the path led to before does not matter, and no later change comes near it.
    refine get?_setAll_of_apart _ change fun next hm => ?_
    obtain ⟨other, ho, hn⟩ := exists_isWritten_of_mem hl next hm
    exact ha other ho next (Override.read_eq_ok_iff.mpr hn)

/-- A plain value that stands behind the first equals sign of an override is bound to the trimmed
key in front of it, as the text it is, exactly when it names no number; every context that the
overrides are merged into then has this text there, and so has a render of the path, which only
tidying changes. A value that names a number is bound as a number that is not finite.
-/
theorem ofOverrides_keepsText_iff {before after : List String} {earlier later : Context}
    {key value path : String} (hbefore : ofOverrides before = .ok earlier)
    (hafter : ofOverrides after = .ok later) (hequals : '=' ∉ key.toList)
    (hblank : Text.isBlankText key.toList = false)
    (hpath : String.ofList (Text.trim key.toList) = path) (hplain : Override.IsPlain value)
    (hapart : ∀ argument ∈ after, ∀ change, Override.read argument = .ok change
      → change.IsApart ⟨path, .string value⟩)
    : ∃ overrides,
        ofOverrides (before ++ (key ++ "=" ++ value) :: after) = .ok overrides
        ∧ (overrides.get? path = some (.string value) ↔ ¬ Number.IsNumberName value.toList)
        ∧ (¬ Number.IsNumberName value.toList
          → ∀ base : Context,
              (base.merge overrides).get? path = some (.string value)
              ∧ (IsPath path.toList
                → ∀ engine : Engine,
                    engine.compile ("\x7b\x7b " ++ path ++ " \x7d\x7d")
                        (base.merge overrides).toValue
                      = pure (if engine.normalizes
                          then String.ofList (normalize value.toList) else value)))
        ∧ (Number.IsNumberName value.toList
          → ∃ n, overrides.get? path = some (.number n) ∧ Number.isFinite n = false) := by
  have hw : Override.IsWritten (key ++ "=" ++ value) ⟨path, Override.readValue value⟩ :=
    ⟨key.toList, value.toList, by simp, hequals, hblank, by rw [hpath, String.ofList_toList]⟩
  obtain ⟨overrides, hread, hkeys, hfound⟩ :=
    exists_ofOverrides_append_cons hbefore hafter hw hapart
  refine ⟨overrides, hread, ?_, fun hn base => ?_, fun hn => ?_⟩
  · rw [hfound, Option.some_inj, Override.readValue_eq_string_iff hplain]
  · rw [Override.readValue_of_not_isNumberName hplain hn] at hfound
    have hmerged := get?_merge_of_not_isMap base hkeys hfound rfl
    refine ⟨hmerged, fun hp engine => ?_⟩
    rw [Engine.compile, Template.render_path engine.filters hp hmerged]
    cases engine.normalizes <;> simp [outputChars]
  · obtain ⟨n, hr, hi⟩ := Override.exists_readValue_of_isNumberName hplain hn
    exact ⟨n, by rw [hfound, hr], hi⟩

/-- A text with spaces, brackets and another equals sign is bound to the trimmed key between other
overrides, of which the one in front has another text for it.
-/
theorem ofOverrides_siteName
    : ofOverrides ["site.name=old", "owner=null"]
        = .ok ⟨[("site", .map [("name", .string "old")]), ("owner", .null)]⟩
      ∧ ofOverrides ["site.lang=fr"] = .ok ⟨[("site", .map [("lang", .string "fr")])]⟩
      ∧ Override.IsPlain " a = b, [1e] "
      ∧ (∀ argument ∈ ["site.lang=fr"], ∀ change, Override.read argument = .ok change
        → change.IsApart ⟨"site.name", .string " a = b, [1e] "⟩)
      ∧ ¬ Number.IsNumberName " a = b, [1e] ".toList
      ∧ IsPath "site.name".toList
      ∧ ∃ overrides,
          ofOverrides
              ["site.name=old", "owner=null", " site.name = a = b, [1e] ", "site.lang=fr"]
            = .ok overrides
          ∧ ∀ base : Context,
              (base.merge overrides).get? "site.name" = some (.string " a = b, [1e] ")
              ∧ ({ normalizes := false } : Engine).compile "\x7b\x7b site.name \x7d\x7d"
                  (base.merge overrides).toValue
                = pure " a = b, [1e] " := by
  have hbefore : ofOverrides ["site.name=old", "owner=null"]
      = .ok ⟨[("site", .map [("name", .string "old")]), ("owner", .null)]⟩ := by cbv
  have hafter : ofOverrides ["site.lang=fr"] = .ok ⟨[("site", .map [("lang", .string "fr")])]⟩ := by
    cbv
  have hplain : Override.IsPlain " a = b, [1e] " := by decide +kernel
  have hapart : ∀ argument ∈ ["site.lang=fr"], ∀ change, Override.read argument = .ok change
      → change.IsApart ⟨"site.name", .string " a = b, [1e] "⟩ := by
    intro argument hm change hr
    obtain rfl : argument = "site.lang=fr" := by simpa using hm
    have hread : Override.read "site.lang=fr" = .ok ⟨"site.lang", .string "fr"⟩ := by cbv
    obtain rfl : ⟨"site.lang", .string "fr"⟩ = change := Except.ok.inj (hread.symm.trans hr)
    decide +kernel
  have hname : ¬ Number.IsNumberName " a = b, [1e] ".toList := by decide +kernel
  have hpath : IsPath "site.name".toList :=
    ⟨"site".toList, ["name".toList], rfl, ⟨by decide, by decide +kernel⟩,
      by rintro _ ⟨⟩; decide +kernel, by decide,
      List.forall_mem_singleton.mpr ⟨by decide, by decide +kernel⟩⟩
  have hequals : '=' ∉ " site.name ".toList := by decide
  obtain ⟨overrides, hread, -, hkept, -⟩ :=
    ofOverrides_keepsText_iff hbefore hafter hequals (by decide) (by cbv) hplain hapart
  refine ⟨hbefore, hafter, hplain, hapart, hname, hpath, overrides, hread, fun base => ?_⟩
  obtain ⟨hmerged, hshown⟩ := hkept hname base
  exact ⟨hmerged, hshown hpath _⟩

/-- A word that names no finite number is bound as that number and loses its case. -/
theorem ofOverrides_nan
    : Override.IsPlain "Nan"
      ∧ ∃ overrides,
          ofOverrides ["owner=Nan"] = .ok overrides
          ∧ overrides.get? "owner" ≠ some (.string "Nan")
          ∧ (({} : Engine).compile "\x7b\x7b owner \x7d\x7d" overrides.toValue).value = "NaN" := by
  have hread : ofOverrides ["owner=Nan"] = .ok ⟨[("owner", .number (0 / 0))]⟩ := rfl
  refine ⟨by decide +kernel, _, hread, ?_, by decide +kernel⟩
  rintro ⟨⟩

end Context

end ReportTemplate
