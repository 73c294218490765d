import LocationServer.Foundation.Journal
import LocationServer.Server
import LocationServer.Text

/-!
# The configuration file (`plainconfig.h`, `plainconfig.cpp`)

`load` reads the file into a buffer with a NUL behind it and splits it into
lines, and a line into its properties, with runs of separators cut once.  Two
things differ from the format of the file: a value loses the second of two
adjacent `=`, and the NUL stays at the end of a last line that neither a
newline nor a comment ends.
-/

namespace LocationServer

open Std

/-! ## Loading -/

/-- The body of the loop in `PlainConfig::load`. -/
def PlainConfig.loadLine (conf : PlainConfig) (line : String) :
    PlainConfig :=
  let text := trim line
  if text = "" || text.toList.head? = some '#' then conf
  else
    let text := (split '#' text).headD text
    match split '=' text with
    | key :: value :: rest =>
        let params2 := value :: rest
        { props :=
            conf.props.insert (trim key) (trim ("=".intercalate params2)) }
    | _ => conf

/-- `PlainConfig::load`; `none` is a file whose size cannot be read. -/
def PlainConfig.load (conf : PlainConfig) (file : Option String) :
    Bool × PlainConfig :=
  match file with
  | none => (false, conf)
  | some content =>
      let buf := content ++ "\x00"
      (true, (split '\n' buf).foldl PlainConfig.loadLine conf)

/-! ## The format of the file -/

/-- A line of the file, and whether a newline ends it. -/
structure ConfLine where
  text : List Char
  terminated : Bool
  deriving DecidableEq, Repr

/-- Only the last line of a file has no newline behind it. -/
def confLinesOf : List (List Char) → List ConfLine
  | [] => []
  | [text] => [⟨text, false⟩]
  | text :: next :: rest => ⟨text, true⟩ :: confLinesOf (next :: rest)

/-- The lines of a file; the last one is empty when a newline ends the
file. -/
def confLines (content : String) : List ConfLine :=
  confLinesOf (content.toList.splitOn '\n')

/-- The text of a line before its comment. -/
def uncommented (text : List Char) : List Char :=
  text.takeWhile (· ≠ '#')

/-- A property as the trimmed texts on both sides of an equals sign. -/
def propertyOf (parts : List Char × List Char) : String × String :=
  (trim (String.ofList parts.1), trim (String.ofList parts.2))

/-- The property that a line sets. -/
def ConfLine.setting? (line : ConfLine) : Option (String × String) :=
  (Tokens.cutAt '=' (uncommented line.text)).map propertyOf

/-- The properties that a file sets, in the order of its lines. -/
def confSettings (content : String) : List (String × String) :=
  (confLines content).filterMap ConfLine.setting?

/-- The lines that set a property, each filed under its key. -/
def settingLines (content : String) : List (String × ConfLine) :=
  (confLines content).filterMap fun line =>
    line.setting?.map fun setting => (setting.1, line)

/-- No two equals signs stand side by side before the comment, and a newline or
a comment ends the line. -/
def ConfLine.Plain (line : ConfLine) : Prop :=
  Tokens.Single '=' (uncommented line.text) ∧
    (line.terminated = true ∨ '#' ∈ line.text)

instance (line : ConfLine) : Decidable line.Plain :=
  inferInstanceAs (Decidable (_ ∧ _))

/-! ## What the loop does with a line -/

/-- The line as it stands in the buffer. -/
def ConfLine.buffered (line : ConfLine) : List Char :=
  if line.terminated then line.text else line.text ++ ['\x00']

/-- The property that the loop stores for a piece of the buffer. -/
def loadedProperty (piece : List Char) : Option (String × String) :=
  (Tokens.cutAt '=' (Tokens.squeeze '=' (uncommented piece))).map propertyOf

theorem isSpace_equals : isSpace '=' = false := by decide

theorem isSpace_hash : isSpace '#' = false := by decide

theorem isSpace_nul : isSpace '\x00' = false := by decide

/-- A character that is not white space is not in a run of white space. -/
theorem not_mem_of_isSpace {character : Char} {run : List Char}
    (visible : isSpace character = false)
    (blank : ∀ other ∈ run, isSpace other = true) : character ∉ run := by
  intro member
  rw [blank character member] at visible
  cases visible

theorem trim_append_left {lead : List Char}
    (blank : ∀ other ∈ lead, isSpace other = true) (text : List Char) :
    trim (String.ofList (lead ++ text)) = trim (String.ofList text) := by
  rw [← String.toList_inj, toList_trim, toList_trim, String.toList_ofList,
    String.toList_ofList, Tokens.strip_append_left blank]

theorem trim_append_right {trail : List Char}
    (blank : ∀ other ∈ trail, isSpace other = true) (text : List Char) :
    trim (String.ofList (text ++ trail)) = trim (String.ofList text) := by
  rw [← String.toList_inj, toList_trim, toList_trim, String.toList_ofList,
    String.toList_ofList, Tokens.strip_append_right blank]

/-- Texts that are the same when they are trimmed have the same visible
characters. -/
theorem count_of_trim_eq {text other : List Char}
    (same : trim (String.ofList text) = trim (String.ofList other))
    {character : Char} (visible : isSpace character = false) :
    text.count character = other.count character := by
  rw [← String.toList_inj, toList_trim, toList_trim, String.toList_ofList,
    String.toList_ofList] at same
  have counts := congrArg (List.count character) same
  rwa [Tokens.count_strip visible, Tokens.count_strip visible] at counts

/-- White space does not begin a comment. -/
theorem uncommented_append_left {lead : List Char}
    (blank : ∀ other ∈ lead, isSpace other = true) (text : List Char) :
    uncommented (lead ++ text) = lead ++ uncommented text := by
  have passes : ∀ other ∈ lead, decide (other ≠ '#') = true := by
    intro other member
    have different : other ≠ '#' := by
      rintro rfl
      exact not_mem_of_isSpace isSpace_hash blank member
    simpa using different
  rw [uncommented, List.takeWhile_append_of_pos passes]
  rfl

/-- White space at the end stays, unless it is in a comment. -/
theorem uncommented_append_right {trail : List Char}
    (blank : ∀ other ∈ trail, isSpace other = true) (text : List Char) :
    ∃ rest, (∀ other ∈ rest, isSpace other = true) ∧
      uncommented (text ++ trail) = uncommented text ++ rest := by
  rw [uncommented, uncommented, List.takeWhile_append]
  split
  · rename_i whole
    refine ⟨trail.takeWhile (· ≠ '#'), ?_, ?_⟩
    · intro other member
      exact blank other (List.takeWhile_subset _ member)
    · rw [(List.takeWhile_prefix _).eq_of_length whole]
  · exact ⟨[], by simp, by simp⟩

/-- White space around a line does not change its property. -/
theorem loadedProperty_trim (piece : List Char) :
    loadedProperty piece =
      loadedProperty (Tokens.strip isSpace piece) := by
  obtain ⟨lead, trail, parts, leadBlank, trailBlank⟩ :=
    Tokens.exists_strip isSpace piece
  obtain ⟨rest, restBlank, cut⟩ :=
    uncommented_append_right trailBlank (Tokens.strip isSpace piece)
  have leadFree := not_mem_of_isSpace isSpace_equals leadBlank
  have restFree := not_mem_of_isSpace isSpace_equals restBlank
  have around :
      uncommented piece =
        lead ++ (uncommented (Tokens.strip isSpace piece) ++ rest) := by
    rw [← cut, ← uncommented_append_left leadBlank, ← parts]
  rw [loadedProperty, loadedProperty, around,
    Tokens.squeeze_append_left leadFree,
    Tokens.squeeze_append_right restFree,
    Tokens.cutAt_append_left leadFree, Tokens.cutAt_append_right restFree,
    Option.map_map, Option.map_map]
  apply Option.map_congr
  intro cut _
  simp only [Function.comp_apply, propertyOf, trim_append_left leadBlank,
    trim_append_right restBlank]

/-- The loop body stores the property of its line, if there is one. -/
theorem loadLine_eq (conf : PlainConfig) (line : String) :
    conf.loadLine line =
      match loadedProperty line.toList with
      | none => conf
      | some (key, value) => { props := conf.props.insert key value } := by
  rw [loadedProperty_trim, ← toList_trim, PlainConfig.loadLine]
  dsimp only
  by_cases skipped :
      trim line = "" ∨ (trim line).toList.head? = some '#'
  · have nothing : uncommented (trim line).toList = [] := by
      rcases skipped with empty | comment
      · rw [empty]
        rfl
      · cases isText : (trim line).toList with
        | nil => rfl
        | cons first rest =>
            rw [isText] at comment
            obtain rfl := Option.some.inj comment
            rfl
    rw [if_pos (by simpa using skipped), loadedProperty, nothing]
    rfl
  · rw [if_neg (by simpa using skipped)]
    obtain ⟨items, isSplit⟩ := head_split '#' (trim line)
    rw [isSplit, List.headD_cons]
    rw [loadedProperty, uncommented]
    cases cut : Tokens.cutAt '=' (Tokens.squeeze '='
        ((trim line).toList.takeWhile (· ≠ '#'))) with
    | none =>
        rw [← @String.toList_ofList
          ((trim line).toList.takeWhile (· ≠ '#'))] at cut
        obtain ⟨item, single⟩ := split_of_free cut
        rw [single]
        rfl
    | some found =>
        obtain ⟨before, after⟩ := found
        rw [← @String.toList_ofList
          ((trim line).toList.takeWhile (· ≠ '#'))] at cut
        obtain ⟨item, items, isItems, joined⟩ := split_of_cut cut
        rw [isItems]
        have value :
            "=".intercalate (item :: items) = String.ofList after := by
          rw [← String.toList_inj, String.toList_ofList, ← joined]
          rfl
        simp only [Option.map_some, propertyOf, value]

/-! ## Lines of the buffer -/

/-- What the end of the buffer leaves in the text before the comment. -/
def ConfLine.leftover (line : ConfLine) : List Char :=
  if line.terminated = true ∨ '#' ∈ line.text then [] else ['\x00']

theorem uncommented_buffered (line : ConfLine) :
    uncommented line.buffered = uncommented line.text ++ line.leftover := by
  rw [ConfLine.buffered, ConfLine.leftover]
  cases line.terminated with
  | true => simp
  | false =>
      rw [uncommented, uncommented, if_neg Bool.false_ne_true,
        List.takeWhile_append]
      by_cases comment : '#' ∈ line.text
      · have shorter :
            (line.text.takeWhile (· ≠ '#')).length ≠ line.text.length := by
          intro whole
          have same := (List.takeWhile_prefix (· ≠ '#')).eq_of_length whole
          rw [← same] at comment
          simpa using List.mem_takeWhile_imp comment
        rw [if_neg shorter]
        simp [comment]
      · have whole : line.text.takeWhile (· ≠ '#') = line.text := by
          rw [List.takeWhile_eq_self_iff]
          intro character member
          simpa using fun same : character = '#' => comment (same ▸ member)
        rw [whole, if_pos rfl]
        simp [comment]

theorem equals_not_mem_leftover (line : ConfLine) :
    '=' ∉ line.leftover := by
  rw [ConfLine.leftover]
  split <;> decide

/-- The loop finds the property of a line under its key; the value is the one
of the format exactly when the line is plain. -/
theorem loadedProperty_buffered {line : ConfLine}
    (noNul : '\x00' ∉ line.text) {key value : String}
    (sets : line.setting? = some (key, value)) :
    ∃ loaded, loadedProperty line.buffered = some (key, loaded) ∧
      (loaded = value ↔ line.Plain) := by
  obtain ⟨⟨before, after⟩, cut, isSetting⟩ := Option.map_eq_some_iff.mp sets
  obtain ⟨rfl, rfl⟩ := Prod.mk.inj isSetting
  obtain ⟨parts, free⟩ := Tokens.eq_of_cutAt cut
  have squeezed := Tokens.squeeze_of_cutAt cut
  have loads :
      loadedProperty line.buffered =
        some (propertyOf
          (before, Tokens.squeezeFrom '=' true after ++ line.leftover)) := by
    rw [loadedProperty, uncommented_buffered,
      Tokens.squeeze_append_right (equals_not_mem_leftover line),
      Tokens.cutAt_append_right (equals_not_mem_leftover line), squeezed,
      Tokens.cutAt_append_cons free]
    rfl
  refine ⟨_, loads, ?_⟩
  dsimp only
  constructor
  · intro same
    have counted (character : Char)
        (visible : isSpace character = false) :
        (Tokens.squeezeFrom '=' true after).count character +
            line.leftover.count character =
          after.count character := by
      rw [← List.count_append]
      exact count_of_trim_eq same visible
    have noNulAfter : after.count '\x00' = 0 := by
      apply List.count_eq_zero_of_not_mem
      intro member
      apply noNul
      apply List.takeWhile_subset (· ≠ '#')
      rw [uncommented] at parts
      rw [parts]
      exact List.mem_append_right _ (List.mem_cons_of_mem _ member)
    have noEquals : line.leftover.count '=' = 0 :=
      List.count_eq_zero_of_not_mem (equals_not_mem_leftover line)
    refine ⟨?_, ?_⟩
    · apply Tokens.single_of_count_squeeze
      have equals := counted '=' isSpace_equals
      rw [squeezed, parts, List.count_append, List.count_append,
        List.count_cons, List.count_cons]
      omega
    · by_contra unplain
      have nul := counted '\x00' isSpace_nul
      rw [ConfLine.leftover, if_neg unplain, noNulAfter] at nul
      simp at nul
  · intro plain
    obtain ⟨single, ends⟩ := plain
    rw [← Tokens.squeeze_eq_self_iff, squeezed, parts] at single
    have kept := (List.cons.inj (List.append_cancel_left single)).2
    rw [ConfLine.leftover, if_pos ends, List.append_nil, kept]

theorem loadedProperty_eq_none {line : ConfLine}
    (setsNone : line.setting? = none) :
    loadedProperty line.buffered = none := by
  rw [ConfLine.setting?, Option.map_eq_none_iff,
    Tokens.cutAt_eq_none_iff] at setsNone
  rw [loadedProperty, Option.map_eq_none_iff, Tokens.cutAt_eq_none_iff,
    uncommented_buffered]
  intro member
  have inside := (Tokens.squeezeFrom_sublist _ _).subset member
  rw [List.mem_append] at inside
  exact inside.elim setsNone (equals_not_mem_leftover line)

/-- The buffer has the lines of the file, the last one with the NUL. -/
theorem splitOn_buffer (text : List Char) :
    (text ++ ['\x00']).splitOn '\n' =
      (confLinesOf (text.splitOn '\n')).map ConfLine.buffered := by
  induction text with
  | nil => rfl
  | cons character text inductionHypothesis =>
      rw [List.cons_append, List.splitOn_cons_eq_if_modifyHead,
        List.splitOn_cons_eq_if_modifyHead, inductionHypothesis]
      cases lines : text.splitOn '\n' with
      | nil => exact absurd lines (List.splitOn_ne_nil _ _)
      | cons first rest =>
          by_cases ends : character = '\n'
          · simp [ends, confLinesOf, ConfLine.buffered]
          · cases rest with
            | nil => simp [ends, confLinesOf, ConfLine.buffered]
            | cons second rest =>
                simp [ends, confLinesOf, ConfLine.buffered]

theorem text_mem_of_mem_confLinesOf {texts : List (List Char)}
    {line : ConfLine} (member : line ∈ confLinesOf texts) :
    line.text ∈ texts := by
  induction texts with
  | nil => cases member
  | cons text rest inductionHypothesis =>
      cases rest with
      | nil =>
          obtain rfl := List.mem_singleton.mp member
          exact List.mem_cons_self
      | cons next rest =>
          rcases List.mem_cons.mp member with rfl | member
          · exact List.mem_cons_self
          · exact List.mem_cons_of_mem _ (inductionHypothesis member)

theorem not_mem_of_mem_confLines {content : String} {line : ConfLine}
    (member : line ∈ confLines content)
    (noNul : '\x00' ∉ content.toList) : '\x00' ∉ line.text := by
  intro inside
  exact noNul
    (Tokens.mem_of_mem_splitOn (text_mem_of_mem_confLinesOf member)
      inside).1

/-! ## The whole file -/

/-- The configuration after the loop answers with the last property stored. -/
theorem getElem?_foldl_loadLine (lines : List String) (conf : PlainConfig)
    (key : String) :
    (lines.foldl PlainConfig.loadLine conf).props[key]? =
      (Journal.last key
        (lines.filterMap fun line => loadedProperty line.toList)).or
        conf.props[key]? := by
  induction lines generalizing conf with
  | nil => rfl
  | cons line lines inductionHypothesis =>
      rw [List.foldl_cons, inductionHypothesis, loadLine_eq,
        List.filterMap_cons]
      cases loadedProperty line.toList with
      | none => rfl
      | some property =>
          obtain ⟨stored, value⟩ := property
          dsimp only
          rw [TreeMap.getElem?_insert, Journal.last, Option.or_assoc]
          by_cases same : stored = key
          · simp [same]
          · simp [same]

/-- What `load` stores is what it reads in the lines of the buffer. -/
theorem getElem?_load (content key : String) :
    (PlainConfig.load {} (some content)).2.props[key]? =
      Journal.last key
        ((confLines content).filterMap fun line =>
          loadedProperty line.buffered) := by
  rw [PlainConfig.load]
  dsimp only
  rw [getElem?_foldl_loadLine]
  have blank : loadedProperty [] = none := rfl
  have pieces :
      (split '\n' (content ++ "\x00")).filterMap
          (fun line => loadedProperty line.toList) =
        (confLines content).filterMap fun line =>
          loadedProperty line.buffered := by
    rw [← Function.comp_def loadedProperty String.toList,
      ← List.filterMap_map, toList_split,
      Tokens.filterMap_splitOn_squeeze blank, String.toList_append]
    rw [confLines, ← Function.comp_def loadedProperty ConfLine.buffered,
      ← List.filterMap_map, ← splitOn_buffer]
    rfl
  rw [pieces]
  simp

/-- Loading a file into an empty configuration sets the properties of its
lines, the last line of a key winning. -/
structure LoadsFormat (content : String) : Prop where
  loaded : (PlainConfig.load {} (some content)).1 = true
  props :
    ∀ key,
      (PlainConfig.load {} (some content)).2.props[key]? =
        Journal.last key (confSettings content)

/-- The value that the loop reads in a line. -/
def ConfLine.loadedValue (line : ConfLine) : String :=
  ((loadedProperty line.buffered).map Prod.snd).getD ""

/-- The value that the format gives a line. -/
def ConfLine.value (line : ConfLine) : String :=
  (line.setting?.map Prod.snd).getD ""

theorem filterMap_loadedProperty {lines : List ConfLine}
    (noNul : ∀ line ∈ lines, '\x00' ∉ line.text) :
    (lines.filterMap fun line => loadedProperty line.buffered) =
        (lines.filterMap fun line =>
          line.setting?.map fun setting => (setting.1, line)).map
            (fun entry => (entry.1, entry.2.loadedValue)) ∧
      lines.filterMap ConfLine.setting? =
        (lines.filterMap fun line =>
          line.setting?.map fun setting => (setting.1, line)).map
            (fun entry => (entry.1, entry.2.value)) := by
  induction lines with
  | nil => exact ⟨rfl, rfl⟩
  | cons line lines inductionHypothesis =>
      rw [List.forall_mem_cons] at noNul
      obtain ⟨loads, formats⟩ := inductionHypothesis noNul.2
      cases sets : line.setting? with
      | none =>
          simp only [List.filterMap_cons, sets, loadedProperty_eq_none sets,
            Option.map_none]
          exact ⟨loads, formats⟩
      | some setting =>
          obtain ⟨key, value⟩ := setting
          obtain ⟨loaded, isLoaded, -⟩ :=
            loadedProperty_buffered noNul.1 sets
          simp only [List.filterMap_cons, sets, isLoaded, Option.map_some,
            List.map_cons, loads, formats, ConfLine.loadedValue,
            ConfLine.value, Option.getD_some, and_self]

/-- A file without NUL is loaded as its format says exactly when the last line
of every key is plain. -/
theorem load_implements_format_iff {content : String}
    (noNul : '\x00' ∉ content.toList) :
    LoadsFormat content ↔
      ∀ key line, Journal.last key (settingLines content) = some line →
        Tokens.Single '=' (uncommented line.text) ∧
          (line.terminated = true ∨ '#' ∈ line.text) := by
  have free : ∀ line ∈ confLines content, '\x00' ∉ line.text :=
    fun line member => not_mem_of_mem_confLines member noNul
  obtain ⟨loads, formats⟩ := filterMap_loadedProperty free
  have agree (key : String) (line : ConfLine)
      (isLast : Journal.last key (settingLines content) = some line) :
      line.loadedValue = line.value ↔ line.Plain := by
    obtain ⟨other, member, isKeyed⟩ :=
      List.mem_filterMap.mp (Journal.mem_of_last_eq_some isLast)
    obtain ⟨setting, sets, same⟩ := Option.map_eq_some_iff.mp isKeyed
    obtain ⟨-, rfl⟩ := Prod.mk.inj same
    obtain ⟨loaded, isLoaded, compares⟩ :=
      loadedProperty_buffered (free other member) sets
    rw [ConfLine.loadedValue, ConfLine.value, isLoaded, sets]
    exact compares
  have reads (key : String) :
      (PlainConfig.load {} (some content)).2.props[key]? =
          (Journal.last key (settingLines content)).map
            ConfLine.loadedValue ∧
        Journal.last key (confSettings content) =
          (Journal.last key (settingLines content)).map
            ConfLine.value := by
    rw [getElem?_load, confSettings, loads, formats,
      Journal.last_map_value, Journal.last_map_value]
    exact ⟨rfl, rfl⟩
  constructor
  · intro format key line isLast
    have same := format.props key
    rw [(reads key).1, (reads key).2, isLast] at same
    exact (agree key line isLast).mp (Option.some.inj same)
  · intro plain
    refine ⟨rfl, ?_⟩
    intro key
    rw [(reads key).1, (reads key).2]
    cases isLast : Journal.last key (settingLines content) with
    | none => rfl
    | some line =>
        exact congrArg some
          ((agree key line isLast).mpr (plain key line isLast))

/-- A file in the way of `server.conf`, with a comment behind a value. -/
theorem load_implements_format_sample :
    LoadsFormat "map.origin=70,10\nsyncpoint=20  #rows\n" := by
  have plain :
      ∀ entry ∈ settingLines "map.origin=70,10\nsyncpoint=20  #rows\n",
        entry.2.Plain := by
    decide +kernel
  refine (@load_implements_format_iff
    "map.origin=70,10\nsyncpoint=20  #rows\n" (by decide +kernel)).mpr ?_
  intro key line isLast
  exact plain (key, line) (Journal.mem_of_last_eq_some isLast)

/-- In the file `a==b` the value loses an equals sign; in the file `port=8080`
without a newline it gains a NUL. -/
theorem load_changes_values :
    ((PlainConfig.load {} (some "a==b\n")).2.getProperty "a" "" = "b" ∧
        ¬LoadsFormat "a==b\n") ∧
      (PlainConfig.load {} (some "port=8080")).2.getProperty "port" "" =
          "8080\x00" ∧
        ¬LoadsFormat "port=8080" := by
  refine ⟨⟨by decide +kernel, ?_⟩, by decide +kernel, ?_⟩
  · intro format
    have loaded := format.props "a"
    revert loaded
    decide +kernel
  · intro format
    have loaded := format.props "port"
    revert loaded
    decide +kernel

end LocationServer
