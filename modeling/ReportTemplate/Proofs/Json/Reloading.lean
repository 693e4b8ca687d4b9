import ReportTemplate.Context.File
import ReportTemplate.Filter.General
import ReportTemplate.Proofs.Json.Reading
import ReportTemplate.Proofs.Json.Scanning
import ReportTemplate.Proofs.Value.Equality
import ReportTemplate.Value.Text

/-! Values are reloaded from their JSON text.
Numbers change their form twice, from binary to decimal and back, and zero loses its sign on the
way, which equality does not see. Everything else is kept, the order of keys included.
-/

namespace ReportTemplate

namespace Value

-----------------------------------------------------------------------------------------
-- Equality with the order of keys
-----------------------------------------------------------------------------------------

/-- Holds for values whose numbers are all equal to integers of less than 53 bits. -/
def HasSmallIntegers (value : Value) : Prop :=
  value.AllNumbers fun n => ∃ z : Int, z.natAbs < 2 ^ 53 ∧ (n == Float.ofInt z) = true

/-- Holds for values that are equal with the same order of keys at every level. -/
inductive EqualInOrder : Value → Value → Prop where
  | null : EqualInOrder .null .null
  | bool (flag : Bool) : EqualInOrder (.bool flag) (.bool flag)
  | number {n m : Float} (h : (n == m) = true) : EqualInOrder (.number n) (.number m)
  | string (text : String) : EqualInOrder (.string text) (.string text)
  | noItems : EqualInOrder (.list []) (.list [])
  | items {item other : Value} {items others : List Value} (h : EqualInOrder item other)
      (hs : EqualInOrder (.list items) (.list others))
      : EqualInOrder (.list (item :: items)) (.list (other :: others))
  | noEntries : EqualInOrder (.map []) (.map [])
  | entries (key : String) {value other : Value} {entries others : Entries Value}
      (h : EqualInOrder value other) (hs : EqualInOrder (.map entries) (.map others))
      : EqualInOrder (.map ((key, value) :: entries)) (.map ((key, other) :: others))

namespace EqualInOrder

theorem keys_eq {entries others : Entries Value} (h : EqualInOrder (.map entries) (.map others))
    : entries.keys = others.keys := by
  induction entries generalizing others with
  | nil =>
      cases h with
      | noEntries => rfl
  | cons entry entries ih =>
      cases h with
      | entries key h hs => exact congrArg (key :: ·) (ih hs)

theorem hasDistinctKeys {a b : Value} (h : EqualInOrder a b) (hb : b.HasDistinctKeys)
    : a.HasDistinctKeys := by
  induction h with
  | null => exact hb
  | bool flag => exact hb
  | number h => exact .number _
  | string text => exact hb
  | noItems => exact hb
  | items h hs ih ihs =>
      simp only [hasDistinctKeys_list_iff, List.forall_mem_cons] at hb ihs ⊢
      exact ⟨ih hb.1, ihs hb.2⟩
  | noEntries => exact hb
  | entries key h hs ih ihs =>
      have hkeys := hs.keys_eq
      simp only [hasDistinctKeys_map_iff, List.forall_mem_cons,
        Entries.nodup_keys_cons_iff] at hb ihs ⊢
      obtain ⟨⟨hk, hn⟩, hv, hr⟩ := hb
      obtain ⟨hnodup, hrest⟩ := ihs ⟨hn, hr⟩
      exact ⟨⟨hkeys ▸ hk, hnodup⟩, ih hv, hrest⟩

/-- Values that are equal in order are equal, by induction on both. -/
theorem beq {a b : Value} (h : EqualInOrder a b) (ha : a.HasDistinctKeys) : (a == b) = true := by
  induction h with
  | null => rfl
  | bool flag => exact BEq.rfl (α := Bool)
  | number h => exact h
  | string text => exact BEq.rfl (α := String)
  | noItems => rfl
  | items h hs ih ihs =>
      simp only [hasDistinctKeys_list_iff, List.forall_mem_cons] at ha ihs
      exact beq_list_iff.mpr (.cons (ih ha.1) (beq_list_iff.mp (ihs ha.2)))
  | noEntries => rfl
  | entries key h hs ih ihs =>
      obtain ⟨hn, hv⟩ := hasDistinctKeys_map_iff.mp ha
      obtain ⟨-, hrest⟩ := Entries.nodup_keys_cons_iff.mp hn
      obtain ⟨hvalue, hvalues⟩ := List.forall_mem_cons.mp hv
      obtain ⟨hperm, hlookup⟩ := (beq_map_iff hrest).mp (ihs (.map hrest hvalues))
      refine (beq_map_iff hn).mpr ⟨hperm.cons key, fun name value other hl ho => ?_⟩
      by_cases hname : key = name
      · rw [Entries.lookup, if_pos hname] at hl ho
        cases hl
        cases ho
        exact ih hvalue
      · rw [Entries.lookup, if_neg hname] at hl ho
        exact hlookup name value other hl ho

theorem depth_eq {a b : Value} (h : EqualInOrder a b) : Json.depth a = Json.depth b := by
  induction h with
  | items h hs ih ihs =>
      simp only [Json.depth, Json.depthItems] at ih ihs ⊢
      omega
  | entries key h hs ih ihs =>
      simp only [Json.depth, Json.depthEntries] at ih ihs ⊢
      omega
  | _ => rfl

end EqualInOrder

end Value

namespace Json

open Value

-----------------------------------------------------------------------------------------
-- Tokens of both layouts
-----------------------------------------------------------------------------------------

/-- Holds when both layouts of a value have the tokens of one that is equal to it in order. -/
structure Prints (value other : Value) : Prop where
  order : EqualInOrder other value
  compact : ScansWord (compact value) (tokens other)
  indented : ∀ depth, ScansWord (indented depth value) (tokens other)

theorem prints_of_scansWord {value other : Value} {text : List Char} (h : EqualInOrder other value)
    (hc : Json.compact value = text) (hi : ∀ depth, Json.indented depth value = text)
    (hs : ScansWord text (tokens other))
    : Prints value other where
  order := h
  compact := hc ▸ hs
  indented depth := (hi depth) ▸ hs

/-- The items behind the first one, by induction on them. -/
theorem exists_prints_items {items : List Value} (h : ∀ item ∈ items, ∃ other, Prints item other)
    : ∃ others, EqualInOrder (.list others) (.list items)
        ∧ Follows (compactItems items) (itemTokens others)
        ∧ ∀ depth, Follows (indentedItems depth items) (itemTokens others) := by
  induction items with
  | nil =>
      have hclose : Follows [']'] [.closeList] := follows_start rfl rfl
      exact ⟨[], .noItems, hclose, fun depth => (follows_newline depth).append hclose.scans⟩
  | cons item items ih =>
      obtain ⟨⟨other, ho⟩, hr⟩ := List.forall_mem_cons.mp h
      obtain ⟨others, horder, hcompact, hindented⟩ := ih hr
      have hcomma : Follows [','] [.comma] := follows_start rfl rfl
      refine ⟨other :: others, .items ho.order horder, ?_, fun depth => ?_⟩
      · exact hcomma.append (ho.compact.append hcompact)
      · have hline := hcomma.append (follows_newline (depth + 1)).scans
        have hrest := (ho.indented (depth + 1)).append (hindented depth)
        rw [indentedItems, List.append_assoc]
        exact hline.append hrest

theorem follows_keyText (key : String) : Follows (keyText key) [.string key, .colon] := by
  have hcolon : Follows [':'] [.colon] := follows_start rfl rfl
  exact (follows_quote key).append hcolon.scans

/-- The entries behind the first one, by induction on them. -/
theorem exists_prints_entries {entries : Entries Value}
    (h : ∀ entry ∈ entries, ∃ other, Prints entry.2 other)
    : ∃ others, EqualInOrder (.map others) (.map entries)
        ∧ Follows (compactEntries entries) (entryTokens others)
        ∧ ∀ depth, Follows (indentedEntries depth entries) (entryTokens others) := by
  induction entries with
  | nil =>
      have hclose : Follows ['\x7d'] [.closeMap] := follows_start rfl rfl
      exact ⟨[], .noEntries, hclose, fun depth => (follows_newline depth).append hclose.scans⟩
  | cons entry entries ih =>
      obtain ⟨key, value⟩ := entry
      obtain ⟨⟨other, ho⟩, hr⟩ := List.forall_mem_cons.mp h
      obtain ⟨others, horder, hcompact, hindented⟩ := ih hr
      have hcomma : Follows [','] [.comma] := follows_start rfl rfl
      have hblank : Follows [' '] [] := follows_start rfl rfl
      have hkey := follows_keyText key
      refine ⟨(key, other) :: others, .entries key ho.order horder, ?_, fun depth => ?_⟩
      · have hrest := ho.compact.append hcompact
        rw [compactEntries, List.append_assoc]
        exact (hcomma.append hkey.scans).append hrest
      · have hline := hcomma.append (follows_newline (depth + 1)).scans
        have hrest := hblank.append ((ho.indented (depth + 1)).append (hindented depth))
        rw [indentedEntries, List.append_assoc]
        exact (hline.append hkey.scans).append hrest.scans

theorem exists_prints_list {items : List Value} (h : ∀ item ∈ items, ∃ other, Prints item other)
    : ∃ other, Prints (.list items) other := by
  have hopen : Follows ['['] [.openList] := follows_start rfl rfl
  cases items with
  | nil =>
      have hclose : Follows [']'] [.closeList] := follows_start rfl rfl
      have hempty : ScansWord ['[', ']'] [.openList, .closeList] :=
        (hopen.append hclose.scans).scansWord
      exact ⟨.list [], prints_of_scansWord .noItems (by rw [Json.compact])
        (fun depth => by rw [Json.indented]) hempty⟩
  | cons item items =>
      obtain ⟨⟨other, ho⟩, hr⟩ := List.forall_mem_cons.mp h
      obtain ⟨others, horder, hcompact, hindented⟩ := exists_prints_items hr
      refine ⟨.list (other :: others), .items ho.order horder, ?_, fun depth => ?_⟩
      · rw [Json.compact, tokens]
        exact (hopen.append (ho.compact.append hcompact)).scansWord
      · have hline := hopen.append (follows_newline (depth + 1)).scans
        have hrest := (ho.indented (depth + 1)).append (hindented depth)
        rw [Json.indented, tokens, List.append_assoc]
        exact (hline.append hrest).scansWord

theorem exists_prints_map {entries : Entries Value}
    (h : ∀ entry ∈ entries, ∃ other, Prints entry.2 other)
    : ∃ other, Prints (.map entries) other := by
  have hopen : Follows ['\x7b'] [.openMap] := follows_start rfl rfl
  cases entries with
  | nil =>
      have hclose : Follows ['\x7d'] [.closeMap] := follows_start rfl rfl
      have hempty : ScansWord ['\x7b', '\x7d'] [.openMap, .closeMap] :=
        (hopen.append hclose.scans).scansWord
      exact ⟨.map [], prints_of_scansWord .noEntries (by rw [Json.compact])
        (fun depth => by rw [Json.indented]) hempty⟩
  | cons entry entries =>
      obtain ⟨key, value⟩ := entry
      obtain ⟨⟨other, ho⟩, hr⟩ := List.forall_mem_cons.mp h
      obtain ⟨others, horder, hcompact, hindented⟩ := exists_prints_entries hr
      have hkey := follows_keyText key
      have hblank : Follows [' '] [] := follows_start rfl rfl
      refine ⟨.map ((key, other) :: others), .entries key ho.order horder, ?_, fun depth => ?_⟩
      · have hrest := ho.compact.append hcompact
        rw [Json.compact, tokens, List.append_assoc]
        exact ((hopen.append hkey.scans).append hrest).scansWord
      · have hline := hopen.append (follows_newline (depth + 1)).scans
        have hrest := hblank.append ((ho.indented (depth + 1)).append (hindented depth))
        rw [Json.indented, tokens, List.append_assoc]
        exact ((hline.append hkey.scans).append hrest.scans).scansWord

/-- Both layouts of a value have the tokens of an equal one, by induction on the value. -/
theorem exists_prints {value : Value} (h : value.HasSmallIntegers)
    : ∃ other, Prints value other := by
  unfold HasSmallIntegers at h
  induction h with
  | null =>
      exact ⟨.null, prints_of_scansWord .null (by rw [Json.compact])
        (fun depth => by rw [Json.indented]) (scansWord_word (by decide) (by decide) rfl)⟩
  | bool flag =>
      refine ⟨.bool flag, prints_of_scansWord (.bool flag) (by rw [Json.compact])
        (fun depth => by rw [Json.indented]) ?_⟩
      cases flag
      · exact scansWord_word (by decide) (by decide) rfl
      · exact scansWord_word (by decide) (by decide) rfl
  | @number n h =>
      obtain ⟨z, hz, h⟩ := h
      have hwhole := Number.IsWhole.of_beq h (Number.isWhole_ofInt hz)
      obtain ⟨x, hx, hw⟩ := scansWord_intText hz
      have htext : numberText n = Number.intText z := by
        rw [numberText, Number.Style.plain, hwhole.integer?_eq hz]
      exact ⟨.number x, prints_of_scansWord (.number (hw.beq hwhole))
        (by rw [Json.compact, htext]) (fun depth => by rw [Json.indented, htext]) hx⟩
  | string text =>
      exact ⟨.string text, prints_of_scansWord (.string text) (by rw [Json.compact])
        (fun depth => by rw [Json.indented]) (follows_quote text).scansWord⟩
  | list _ ih => exact exists_prints_list ih
  | map _ ih => exact exists_prints_map ih

/-- A text with the tokens of a value is read as the value, unless it is nested too deeply. -/
theorem read?_of_scansWord {value : Value} {text : List Char} (h : ScansWord text (tokens value))
    (hv : value.HasDistinctKeys)
    : read? text = if depth value ≤ nestingLimit then some value else none := by
  have hstops : Condition.Stops Token.isWordChar [] := by simp [Condition.Stops]
  have hscan := h [] hstops
  have hfinish : Token.scanner.run .between [] = some [] := rfl
  rw [List.append_nil, hfinish, Option.map_some, List.append_nil] at hscan
  have hread := readsBack hv [] [] (Nat.zero_le _)
  rw [List.append_nil, List.length_nil, Nat.zero_add] at hread
  have hinitial : Token.scanner.initial = .between := rfl
  rw [read?, Text.Scanner.scan?_eq_run, hinitial, hscan, Option.bind_some, hread]
  rfl

-----------------------------------------------------------------------------------------
-- Reloading values and contexts
-----------------------------------------------------------------------------------------

/-- Both texts of a value are read as one value that is equal to it in order, unless it is nested
too deeply.
-/
theorem exists_read?_eq {value : Value} (hk : value.HasDistinctKeys) (hn : value.HasSmallIntegers)
    : ∃ reread, EqualInOrder reread value ∧ (reread == value) = true
        ∧ read? (compact value) = (if depth value ≤ 127 then some reread else none)
        ∧ read? (indented 0 value) = (if depth value ≤ 127 then some reread else none) := by
  obtain ⟨reread, hprints⟩ := exists_prints hn
  have hdistinct := hprints.order.hasDistinctKeys hk
  have hdepth := hprints.order.depth_eq
  refine ⟨reread, hprints.order, hprints.order.beq hdistinct, ?_, ?_⟩
  · rw [read?_of_scansWord hprints.compact hdistinct, hdepth]
    rfl
  · rw [read?_of_scansWord (hprints.indented 0) hdistinct, hdepth]
    rfl

/-- Lists and mappings are reloaded from their compact and from their indented text when they are
nested at most 127 deep: as an equal value with the same order of keys at every level, and contexts
as the same context. Deeper ones are refused.
-/
theorem read?_printed {value : Value}
    (hkind : (∃ items, value = .list items) ∨ ∃ entries, value = .map entries)
    (hk : value.HasDistinctKeys) (hn : value.HasSmallIntegers)
    : (depth value ≤ 127 →
        ∃ reread, EqualInOrder reread value ∧ (reread == value) = true
          ∧ read? value.output.toList = some reread
          ∧ (∀ arguments, ∃ text,
              Filter.json value arguments = Filter.ok text ∧ read? text.toList = some reread)
          ∧ ∀ entries, value = .map entries →
              ∃ context, Context.ofJson value.output = .ok context ∧ context.toValue = reread)
      ∧ (127 < depth value →
          read? value.output.toList = none
          ∧ (∀ arguments, ∃ text,
              Filter.json value arguments = Filter.ok text ∧ read? text.toList = none)
          ∧ Context.ofJson value.output = .error .json) := by
  obtain ⟨reread, horder, hequal, hcompact, hindented⟩ := exists_read?_eq hk hn
  have houtput : value.output.toList = compact value := by
    rw [Value.output, String.toList_ofList]
    rcases hkind with ⟨items, rfl⟩ | ⟨entries, rfl⟩ <;> rfl
  have hfilter : ∀ arguments,
      Filter.json value arguments = Filter.ok (String.ofList (indented 0 value)) := fun _ => rfl
  have htext : (String.ofList (indented 0 value)).toList = indented 0 value :=
    String.toList_ofList
  rw [← houtput] at hcompact
  rw [← htext] at hindented
  constructor
  · intro hdepth
    rw [if_pos hdepth] at hcompact hindented
    refine ⟨reread, horder, hequal, hcompact,
      fun arguments => ⟨_, hfilter arguments, hindented⟩, ?_⟩
    rintro entries rfl
    cases horder with
    | noEntries => exact ⟨⟨[]⟩, by rw [Context.ofJson, hcompact]; rfl, rfl⟩
    | entries key h hs => exact ⟨⟨_⟩, by rw [Context.ofJson, hcompact]; rfl, rfl⟩
  · intro hdepth
    rw [if_neg (by omega)] at hcompact hindented
    refine ⟨hcompact, fun arguments => ⟨_, hfilter arguments, hindented⟩, ?_⟩
    rw [Context.ofJson, hcompact]

/-- Lists inside one another around an empty one. -/
def nestedLists : Nat → Value
  | 0 => .list []
  | n + 1 => .list [nestedLists n]

theorem depth_nestedLists (n : Nat) : depth (nestedLists n) = n + 1 := by
  induction n with
  | zero => rfl
  | succ n ih => simp [nestedLists, depth, depthItems, ih]

theorem hasDistinctKeys_nestedLists (n : Nat)
    : (nestedLists n).HasDistinctKeys ∧ (nestedLists n).HasSmallIntegers := by
  induction n with
  | zero => exact ⟨.list (by simp), .list (by simp)⟩
  | succ n ih =>
      exact ⟨.list (List.forall_mem_singleton.mpr ih.1),
        .list (List.forall_mem_singleton.mpr ih.2)⟩

/-- A mapping with a list in it, with an escaped key and text and with negative zero. -/
def reportSample : Value :=
  .map [("a\"b", .number (-0.0)), ("tags", .list [.string "\n", .number 7, .map []])]

theorem read?_printed_reportSample
    : reportSample.HasDistinctKeys ∧ reportSample.HasSmallIntegers ∧ depth reportSample = 3
      ∧ (∃ context, Context.ofJson reportSample.output = .ok context
          ∧ EqualInOrder context.toValue reportSample)
      ∧ (nestedLists 127).HasDistinctKeys ∧ (nestedLists 127).HasSmallIntegers
      ∧ depth (nestedLists 127) = 128
      ∧ read? (nestedLists 127).output.toList = none := by
  have hkeys : reportSample.HasDistinctKeys := by simp [reportSample, Entries.keys]
  have hzero : ∃ z : Int, z.natAbs < 2 ^ 53 ∧ ((-0.0 : Float) == Float.ofInt z) = true :=
    ⟨0, by decide, by decide +kernel⟩
  have hseven : ∃ z : Int, z.natAbs < 2 ^ 53 ∧ ((7 : Float) == Float.ofInt z) = true :=
    ⟨7, by decide, by decide +kernel⟩
  have hnumbers : reportSample.HasSmallIntegers := by
    simp only [HasSmallIntegers, reportSample, allNumbers_map_iff, allNumbers_list_iff,
      allNumbers_number_iff, List.forall_mem_cons]
    exact ⟨hzero, ⟨.string _, hseven, by simp, by simp⟩, by simp⟩
  have hdepth : depth reportSample = 3 := by decide
  have hlimit : depth reportSample ≤ 127 := by omega
  obtain ⟨reread, horder, -, -, -, hcontext⟩ :=
    (read?_printed (.inr ⟨_, rfl⟩) hkeys hnumbers).1 hlimit
  obtain ⟨context, hc, rfl⟩ := hcontext _ rfl
  obtain ⟨hk, hn⟩ := hasDistinctKeys_nestedLists 127
  have hdeep : 127 < depth (nestedLists 127) := by rw [depth_nestedLists]; omega
  obtain ⟨hrefused, -, -⟩ := (read?_printed (.inl ⟨_, rfl⟩) hk hn).2 hdeep
  exact ⟨hkeys, hnumbers, hdepth, ⟨context, hc, horder⟩, hk, hn, depth_nestedLists 127, hrefused⟩

/-- The text of a mapping around 127 lists is not read. -/
theorem not_read?_nestedLists
    : let value := Value.map [("a", nestedLists 126)]
      value.HasDistinctKeys ∧ value.HasSmallIntegers
      ∧ ¬ (∃ reread, read? value.output.toList = some reread)
      ∧ Context.ofJson value.output = .error .json := by
  obtain ⟨hk, hn⟩ := hasDistinctKeys_nestedLists 126
  have hkeys : (Value.map [("a", nestedLists 126)]).HasDistinctKeys := by simp [Entries.keys, hk]
  have hnumbers : (Value.map [("a", nestedLists 126)]).HasSmallIntegers :=
    .map (List.forall_mem_singleton.mpr hn)
  have hdepth : depth (.map [("a", nestedLists 126)]) = 128 := by
    simp [depth, depthEntries, depth_nestedLists]
  obtain ⟨reread, -, -, hread, -⟩ := exists_read?_eq hkeys hnumbers
  rw [hdepth, if_neg (by decide)] at hread
  have houtput : (Value.map [("a", nestedLists 126)]).output.toList
      = compact (.map [("a", nestedLists 126)]) := String.toList_ofList
  rw [← houtput] at hread
  refine ⟨hkeys, hnumbers, ?_, ?_⟩
  · rintro ⟨reread, h⟩
    rw [hread] at h
    cases h
  · rw [Context.ofJson, hread]

end Json

end ReportTemplate
