import LocationServer.Foundation.Xml
import Mathlib.Order.Nat

/-!
# Content inside an element

What the parser finds at the beginning of a text does not depend on the markup
that follows: a text that is content as a whole is also content in front of an
end tag.
-/

namespace Xml

/-! ## Scanning -/

section Scanning

variable {holds : Char → Bool} {after : Text}

theorem takeWhile_append_of_stop {stop : Char}
    (stops : holds stop = false) (text : Text) :
    (text ++ stop :: after).takeWhile holds = text.takeWhile holds := by
  induction text with
  | nil =>
      exact List.takeWhile_cons_of_neg (by simp [stops])
  | cons c rest inductionHypothesis =>
      rw [List.cons_append, List.takeWhile_cons, List.takeWhile_cons,
        inductionHypothesis]

theorem dropWhile_append_of_stop {stop : Char}
    (stops : holds stop = false) (text : Text) :
    (text ++ stop :: after).dropWhile holds =
      text.dropWhile holds ++ stop :: after := by
  induction text with
  | nil =>
      exact List.dropWhile_cons_of_neg (by simp [stops])
  | cons c rest inductionHypothesis =>
      rw [List.cons_append, List.dropWhile_cons, List.dropWhile_cons,
        inductionHypothesis]
      split
      · rfl
      · rfl

theorem length_le_of_upTo {stop text data rest : Text}
    (found : upTo stop text = some (data, rest)) :
    stop.length ≤ text.length := by
  induction text generalizing data with
  | nil => cases found
  | cons c text inductionHypothesis =>
      rw [upTo] at found
      split at found
      · rename_i here
        exact (List.isPrefixOf_iff_prefix.mp here).length_le
      · obtain ⟨⟨later, _⟩, foundLater, same⟩ :=
          Option.map_eq_some_iff.mp found
        obtain ⟨-, rfl⟩ := Prod.mk.inj same
        exact Nat.le_succ_of_le (inductionHypothesis foundLater)

theorem upTo_append {stop text data rest : Text}
    (found : upTo stop text = some (data, rest)) (after : Text) :
    upTo stop (text ++ after) = some (data, rest ++ after) := by
  induction text generalizing data with
  | nil => cases found
  | cons c text inductionHypothesis =>
      rw [upTo] at found
      rw [List.cons_append, upTo]
      split at found
      · rename_i here
        have bound := (List.isPrefixOf_iff_prefix.mp here).length_le
        obtain ⟨rfl, rfl⟩ := Prod.mk.inj (Option.some.inj found)
        have still : stop.isPrefixOf (c :: (text ++ after)) = true := by
          rw [List.isPrefixOf_iff_prefix] at here ⊢
          exact here.trans (List.prefix_append (c :: text) after)
        rw [if_pos still, ← List.cons_append,
          List.drop_append_of_le_length bound]
      · rename_i notHere
        obtain ⟨later, foundLater, isLater⟩ :=
          Option.map_eq_some_iff.mp found
        obtain ⟨rfl, rfl⟩ := Prod.mk.inj isLater
        have stillNot : ¬ stop.isPrefixOf (c :: (text ++ after)) = true := by
          intro here
          rw [List.isPrefixOf_iff_prefix] at here notHere
          refine notHere (List.prefix_of_prefix_length_le here
            (List.prefix_append (c :: text) after) ?_)
          have bound := length_le_of_upTo foundLater
          rw [List.length_cons]
          omega
        rw [if_neg stillNot, inductionHypothesis foundLater]
        rfl

/-- A text in front of a `<` begins with the markup that it begins with
alone. -/
theorem prefix_append_iff {start text : Text} (after : Text)
    (noMarkup : '<' ∉ start) :
    start <+: text ++ '<' :: after ↔ start <+: text := by
  constructor
  · intro begins
    rcases Nat.lt_or_ge text.length start.length with longer | fits
    · have whole : text ++ ['<'] <+: text ++ '<' :: after :=
        ⟨after, by simp⟩
      have further : text ++ ['<'] <+: start :=
        List.prefix_of_prefix_length_le whole begins
          (by simpa [Nat.succ_le_iff] using longer)
      exact absurd (further.subset (by simp)) noMarkup
    · exact
        List.prefix_of_prefix_length_le begins
          (List.prefix_append text _) fits
  · intro begins
    exact begins.trans (List.prefix_append text _)

end Scanning

/-! ## Tags -/

section Tags

variable {text rest after : Text}

theorem skipSpace_append (text after : Text) :
    skipSpace (text ++ '<' :: after) = skipSpace text ++ '<' :: after :=
  dropWhile_append_of_stop (by decide) text

theorem name_append {found : Text} (named : name text = some (found, rest)) :
    name (text ++ '<' :: after) = some (found, rest ++ '<' :: after) := by
  cases text with
  | nil => cases named
  | cons c text =>
      rw [name, Option.ite_none_right_eq_some] at named
      rw [List.cons_append, name, if_pos named.1,
        takeWhile_append_of_stop (by decide),
        dropWhile_append_of_stop (by decide)]
      simpa using named.2

theorem equals_append (found : equals text = some rest) :
    equals (text ++ '<' :: after) = some (rest ++ '<' :: after) := by
  rw [equals] at found ⊢
  rw [skipSpace_append]
  split at found
  · rename_i start isStart
    rw [isStart, List.cons_append, ← Option.some.inj found]
    exact congrArg some (skipSpace_append start after)
  · cases found

theorem quoted_append {value : Text}
    (found : quoted text = some (value, rest)) (after : Text) :
    quoted (text ++ after) = some (value, rest ++ after) := by
  cases text with
  | nil => cases found
  | cons quote text =>
      rw [quoted, Option.ite_none_right_eq_some] at found
      obtain ⟨isQuote, foundValue⟩ := found
      obtain ⟨⟨raw, later⟩, read, isValue⟩ :=
        Option.bind_eq_some_iff.mp foundValue
      rw [List.cons_append, quoted, if_pos isQuote, upTo_append read after]
      obtain ⟨other, decoded, same⟩ := Option.map_eq_some_iff.mp isValue
      obtain ⟨rfl, rfl⟩ := Prod.mk.inj same
      rw [Option.bind_some]
      dsimp only at decoded ⊢
      rw [decoded]
      rfl

theorem tagEnd_append {empty : Bool}
    (found : tagEnd text = some (empty, rest)) (after : Text) :
    tagEnd (text ++ after) = some (empty, rest ++ after) := by
  rw [tagEnd.eq_def] at found
  split at found
  · obtain ⟨rfl, rfl⟩ := Prod.mk.inj (Option.some.inj found)
    rfl
  · obtain ⟨rfl, rfl⟩ := Prod.mk.inj (Option.some.inj found)
    rfl
  · cases found

/-- What ends a tag does not begin with a name. -/
theorem name_eq_none_of_tagEnd {empty : Bool}
    (found : tagEnd text = some (empty, rest)) (after : Text) :
    name (text ++ after) = none := by
  rw [tagEnd.eq_def] at found
  split at found
  · rfl
  · rfl
  · cases found

theorem attributes_append {fuel : Nat} {found : List (Text × Text)}
    {empty : Bool}
    (read : attributes fuel text = some (found, empty, rest))
    {more : Nat} (enough : fuel ≤ more) :
    attributes more (text ++ '<' :: after) =
      some (found, empty, rest ++ '<' :: after) := by
  induction fuel generalizing text found more with
  | zero => cases read
  | succ fuel inductionHypothesis =>
      obtain ⟨more, rfl⟩ : ∃ other, more = other + 1 :=
        ⟨more - 1, by omega⟩
      rw [attributes] at read ⊢
      rw [skipSpace_append]
      split at read
      · obtain ⟨⟨_, _⟩, ends, same⟩ := Option.map_eq_some_iff.mp read
        simp only [Prod.mk.injEq] at same
        obtain ⟨rfl, rfl, rfl⟩ := same
        rw [name_eq_none_of_tagEnd ends, tagEnd_append ends]
        rfl
      · rename_i first later named
        rw [Option.ite_none_left_eq_some] at read
        obtain ⟨spaced, read⟩ := read
        obtain ⟨⟨value, afterValue⟩, valued, read⟩ :=
          Option.bind_eq_some_iff.mp read
        obtain ⟨afterEquals, equal, isQuoted⟩ :=
          Option.bind_eq_some_iff.mp valued
        obtain ⟨⟨others, _, _⟩, readOthers, read⟩ :=
          Option.bind_eq_some_iff.mp read
        rw [name_append named]
        dsimp only at read ⊢
        rw [Option.ite_none_left_eq_some] at read
        obtain ⟨fresh, same⟩ := read
        simp only [Option.some.injEq, Prod.mk.injEq] at same
        obtain ⟨rfl, rfl, rfl⟩ := same
        have stillSpaced :
            ¬ skipSpace text ++ '<' :: after = text ++ '<' :: after := by
          intro same
          exact spaced (List.append_cancel_right same)
        rw [if_neg stillSpaced, equals_append equal, Option.bind_some,
          quoted_append isQuoted]
        simp only [Option.bind_eq_bind, Option.bind_some]
        rw [inductionHypothesis readOthers (by omega)]
        simp only [Option.bind_some]
        rw [if_neg fresh]

theorem startTag_append {tag : Tag}
    (read : startTag text = some (tag, rest)) :
    startTag (text ++ '<' :: after) = some (tag, rest ++ '<' :: after) := by
  obtain ⟨⟨first, later⟩, named, read⟩ := Option.bind_eq_some_iff.mp read
  obtain ⟨⟨found, empty, left⟩, attributed, same⟩ :=
    Option.bind_eq_some_iff.mp read
  simp only [Option.some.injEq, Prod.mk.injEq] at same
  obtain ⟨rfl, rfl⟩ := same
  rw [startTag, name_append named]
  simp only [Option.bind_eq_bind, Option.bind_some]
  rw [attributes_append attributed (by simp)]
  rfl

theorem endTag_append {expected : Text}
    (read : endTag expected text = some rest) :
    endTag expected (text ++ '<' :: after) =
      some (rest ++ '<' :: after) := by
  rw [endTag.eq_def] at read
  split at read
  · rename_i text
    obtain ⟨⟨first, later⟩, named, read⟩ := Option.bind_eq_some_iff.mp read
    rw [List.cons_append, List.cons_append, endTag, name_append named]
    simp only [Option.bind_eq_bind, Option.bind_some]
    rw [skipSpace_append]
    dsimp only at read
    split at read
    · rename_i closed
      rw [Option.ite_none_right_eq_some] at read
      rw [closed, List.cons_append, ← Option.some.inj read.2]
      exact if_pos read.1
    · cases read
  · cases read

end Tags

/-! ## Content -/

section Content

variable {text rest after : Text}

theorem comment_append {node : Node}
    (read : comment text = some (node, rest)) :
    comment (text ++ after) = some (node, rest ++ after) := by
  obtain ⟨⟨data, later⟩, found, read⟩ := Option.bind_eq_some_iff.mp read
  rw [comment, upTo_append found, Option.bind_some]
  dsimp only at read ⊢
  split at read
  · rw [Option.ite_none_right_eq_some] at read
    obtain ⟨valid, same⟩ := read
    simp only [Option.some.injEq, Prod.mk.injEq] at same
    obtain ⟨rfl, rfl⟩ := same
    rw [List.cons_append]
    exact if_pos valid
  · cases read

theorem cdata_append {node : Node}
    (read : cdata text = some (node, rest)) :
    cdata (text ++ after) = some (node, rest ++ after) := by
  obtain ⟨⟨data, later⟩, found, read⟩ := Option.bind_eq_some_iff.mp read
  rw [cdata, upTo_append found, Option.bind_some]
  dsimp only at read ⊢
  rw [Option.ite_none_right_eq_some] at read
  obtain ⟨valid, same⟩ := read
  simp only [Option.some.injEq, Prod.mk.injEq] at same
  obtain ⟨rfl, rfl⟩ := same
  rw [if_pos valid]

theorem instruction_append {node : Node}
    (read : instruction text = some (node, rest)) :
    instruction (text ++ after) = some (node, rest ++ after) := by
  obtain ⟨⟨data, later⟩, found, read⟩ := Option.bind_eq_some_iff.mp read
  rw [instruction, upTo_append found, Option.bind_some]
  obtain ⟨⟨target, left⟩, named, read⟩ := Option.bind_eq_some_iff.mp read
  dsimp only at named read ⊢
  rw [named, Option.bind_some]
  rw [Option.ite_none_right_eq_some] at read
  obtain ⟨valid, same⟩ := read
  simp only [Option.some.injEq, Prod.mk.injEq] at same
  obtain ⟨rfl, rfl⟩ := same
  dsimp only
  rw [if_pos valid]

theorem data_append {node : Node} (read : data text = some (node, rest)) :
    data (text ++ '<' :: after) = some (node, rest ++ '<' :: after) := by
  obtain ⟨read, found, same⟩ := Option.map_eq_some_iff.mp read
  simp only [Prod.mk.injEq] at same
  obtain ⟨rfl, rfl⟩ := same
  rw [data, takeWhile_append_of_stop (by decide),
    dropWhile_append_of_stop (by decide), found]
  rfl

/-- The markup of a text, when a text follows it. -/
def Markup.append (after : Text) : Markup → Markup
  | .stop => .stop
  | .leaf found =>
      .leaf (found.map fun (node, rest) => (node, rest ++ after))
  | .element rest => .element (rest ++ after)

theorem leaf_append {found later : Option (Node × Text)}
    (legible : Markup.leaf found ≠ .leaf none)
    (stable :
      ∀ node rest, found = some (node, rest) →
        later = some (node, rest ++ after)) :
    Markup.leaf later = (Markup.leaf found).append after := by
  cases found with
  | none => exact absurd rfl legible
  | some read =>
      obtain ⟨node, rest⟩ := read
      rw [stable node rest rfl]
      rfl

theorem markup_append (legible : markup text ≠ .leaf none)
    (ends : text = [] → ['/'] <+: after) :
    markup (text ++ '<' :: after) = (markup text).append ('<' :: after) := by
  cases text with
  | nil => simp [markup, Markup.append, ends rfl]
  | cons c text =>
      rw [List.cons_append]
      simp only [markup] at legible ⊢
      by_cases isMarkup : c = '<'
      · simp only [if_pos isMarkup] at legible ⊢
        simp (disch := decide) only [prefix_append_iff]
        by_cases isEnd : ['/'] <+: text
        · simp only [if_pos isEnd, Markup.append]
        · simp only [if_neg isEnd] at legible ⊢
          by_cases isComment : ['!', '-', '-'] <+: text
          · simp only [if_pos isComment] at legible ⊢
            have bound : 3 ≤ text.length := isComment.length_le
            rw [List.drop_append_of_le_length bound]
            exact leaf_append legible fun _ _ => comment_append
          · simp only [if_neg isComment] at legible ⊢
            by_cases isCdata :
                ['!', '[', 'C', 'D', 'A', 'T', 'A', '['] <+: text
            · simp only [if_pos isCdata] at legible ⊢
              have bound : 8 ≤ text.length := isCdata.length_le
              rw [List.drop_append_of_le_length bound]
              exact leaf_append legible fun _ _ => cdata_append
            · simp only [if_neg isCdata] at legible ⊢
              by_cases isInstruction : ['?'] <+: text
              · simp only [if_pos isInstruction] at legible ⊢
                have bound : 1 ≤ text.length := isInstruction.length_le
                rw [List.drop_append_of_le_length bound]
                exact leaf_append legible fun _ _ => instruction_append
              · simp only [if_neg isInstruction, Markup.append]
      · simp only [if_neg isMarkup] at legible ⊢
        exact leaf_append legible fun _ _ => data_append

/-- More fuel does not change what is found. -/
theorem parse_succ (fuel : Nat) :
    (∀ text found, element fuel text = some found →
      element (fuel + 1) text = some found) ∧
      ∀ text found, content fuel text = some found →
        content (fuel + 1) text = some found := by
  induction fuel with
  | zero =>
      refine ⟨?_, ?_⟩
      · intro text found read
        cases read
      · intro text found read
        cases read
  | succ fuel inductionHypothesis =>
      obtain ⟨elements, contents⟩ := inductionHypothesis
      refine ⟨?_, ?_⟩
      · intro text found read
        rw [element] at read ⊢
        obtain ⟨⟨tag, later⟩, tagged, read⟩ :=
          Option.bind_eq_some_iff.mp read
        rw [tagged, Option.bind_some]
        dsimp only at read ⊢
        split at read
        · rename_i isEmpty
          rw [if_pos isEmpty]
          exact read
        · rename_i notEmpty
          obtain ⟨inside, isInside, read⟩ :=
            Option.bind_eq_some_iff.mp read
          rw [if_neg notEmpty, contents later inside isInside]
          exact read
      · intro text found read
        rw [content] at read ⊢
        cases kind : markup text with
        | stop =>
            rw [kind] at read
            exact read
        | leaf leaf =>
            rw [kind] at read
            obtain ⟨⟨node, later⟩, isLeaf, read⟩ :=
              Option.bind_eq_some_iff.mp read
            obtain ⟨others, inside, same⟩ := Option.map_eq_some_iff.mp read
            dsimp only
            rw [isLeaf, Option.bind_some]
            dsimp only at inside ⊢
            rw [contents later others inside]
            exact congrArg some same
        | element later =>
            rw [kind] at read
            obtain ⟨⟨first, left⟩, isElement, read⟩ :=
              Option.bind_eq_some_iff.mp read
            obtain ⟨others, inside, same⟩ := Option.map_eq_some_iff.mp read
            dsimp only
            rw [elements later (first, left) isElement, Option.bind_some]
            dsimp only at inside ⊢
            rw [contents left others inside]
            exact congrArg some same

theorem element_mono {fuel more : Nat} (enough : fuel ≤ more)
    {found : Element × Text} (read : element fuel text = some found) :
    element more text = some found := by
  induction more, enough using Nat.le_induction with
  | base => exact read
  | succ more _ inductionHypothesis =>
      exact (parse_succ more).1 text found inductionHypothesis

theorem content_mono {fuel more : Nat} (enough : fuel ≤ more)
    {found : List Node × Text} (read : content fuel text = some found) :
    content more text = some found := by
  induction more, enough using Nat.le_induction with
  | base => exact read
  | succ more _ inductionHypothesis =>
      exact (parse_succ more).2 text found inductionHypothesis

/-- An element in front of markup, and content in front of an end tag; content
that has already come to an end tag is the same in front of any markup. -/
theorem parse_append (after : Text) (fuel : Nat) :
    (∀ text found rest, element fuel text = some (found, rest) →
      element fuel (text ++ '<' :: after) =
        some (found, rest ++ '<' :: after)) ∧
      ∀ text nodes rest, content fuel text = some (nodes, rest) →
        (rest = [] → ['/'] <+: after) →
          content fuel (text ++ '<' :: after) =
            some (nodes, rest ++ '<' :: after) := by
  induction fuel with
  | zero =>
      refine ⟨?_, ?_⟩
      · intro text found rest read
        cases read
      · intro text nodes rest read
        cases read
  | succ fuel inductionHypothesis =>
      obtain ⟨elements, contents⟩ := inductionHypothesis
      refine ⟨?_, ?_⟩
      · intro text found rest read
        rw [element] at read ⊢
        obtain ⟨⟨tag, later⟩, tagged, read⟩ :=
          Option.bind_eq_some_iff.mp read
        rw [startTag_append tagged, Option.bind_some]
        dsimp only at read ⊢
        split at read
        · rename_i isEmpty
          simp only [Option.some.injEq, Prod.mk.injEq] at read
          obtain ⟨rfl, rfl⟩ := read
          rw [if_pos isEmpty]
        · rename_i notEmpty
          obtain ⟨⟨children, left⟩, inside, read⟩ :=
            Option.bind_eq_some_iff.mp read
          obtain ⟨closed, ended, same⟩ := Option.map_eq_some_iff.mp read
          simp only [Prod.mk.injEq] at same
          obtain ⟨rfl, rfl⟩ := same
          have more : left = [] → ['/'] <+: after := by
            rintro rfl
            cases ended
          rw [if_neg notEmpty, contents later children left inside more,
            Option.bind_some]
          dsimp only at ended ⊢
          rw [endTag_append ended]
          rfl
      · intro text nodes rest read ends
        rw [content] at read ⊢
        have legible : markup text ≠ .leaf none := by
          intro illegible
          rw [illegible] at read
          cases read
        have endsHere : text = [] → ['/'] <+: after := by
          rintro rfl
          exact ends (Prod.mk.inj (Option.some.inj read)).2.symm
        rw [markup_append legible endsHere]
        cases kind : markup text with
        | stop =>
            rw [kind] at read
            simp only [Option.some.injEq, Prod.mk.injEq] at read
            obtain ⟨rfl, rfl⟩ := read
            rfl
        | leaf found =>
            rw [kind] at read
            dsimp only at read
            obtain ⟨⟨node, later⟩, rfl, read⟩ :=
              Option.bind_eq_some_iff.mp read
            obtain ⟨⟨others, left⟩, inside, same⟩ :=
              Option.map_eq_some_iff.mp read
            simp only [prepend, Prod.mk.injEq] at same
            obtain ⟨rfl, rfl⟩ := same
            simp only [Markup.append, Option.map_some, Option.bind_some]
            rw [contents later others left inside ends]
            rfl
        | element later =>
            rw [kind] at read
            dsimp only at read
            obtain ⟨⟨found, left⟩, isElement, read⟩ :=
              Option.bind_eq_some_iff.mp read
            obtain ⟨⟨others, last⟩, inside, same⟩ :=
              Option.map_eq_some_iff.mp read
            simp only [prepend, Prod.mk.injEq] at same
            obtain ⟨rfl, rfl⟩ := same
            simp only [Markup.append]
            rw [elements later found left isElement, Option.bind_some]
            dsimp only at inside ⊢
            rw [contents left others last inside ends]
            rfl

/-- A text that is content as a whole is content in front of an end tag. -/
theorem content_of_wholeContent {nodes : List Node}
    (whole : wholeContent text = some nodes) (after : Text) {fuel : Nat}
    (enough : text.length < fuel) :
    content fuel (text ++ '<' :: '/' :: after) =
      some (nodes, '<' :: '/' :: after) := by
  obtain ⟨⟨found, rest⟩, read, same⟩ := Option.bind_eq_some_iff.mp whole
  rw [Option.ite_none_right_eq_some] at same
  obtain ⟨rfl, same⟩ := same
  rw [← Option.some.inj same]
  have further : [] = ([] : Text) → ['/'] <+: '/' :: after :=
    fun _ => ⟨after, rfl⟩
  exact
    content_mono enough
      ((parse_append ('/' :: after) _).2 text found [] read further)

end Content

/-! ## Elements one after another -/

section Elements

variable {text rest : Text}

theorem eq_cons_of_markup (kind : markup text = .element rest) :
    text = '<' :: rest := by
  cases text with
  | nil => cases kind
  | cons c text =>
      simp only [markup] at kind
      split at kind
      · rename_i isMarkup
        split at kind
        · cases kind
        · split at kind
          · cases kind
          · split at kind
            · cases kind
            · split at kind
              · cases kind
              · rw [isMarkup, Markup.element.inj kind]
      · cases kind

theorem not_element_of_comment {node : Node} {found : Element}
    (read : comment text = some (node, rest)) : node ≠ found.node := by
  obtain ⟨⟨data, later⟩, -, read⟩ := Option.bind_eq_some_iff.mp read
  dsimp only at read
  split at read
  · rw [Option.ite_none_right_eq_some] at read
    rw [← (Prod.mk.inj (Option.some.inj read.2)).1]
    exact Node.noConfusion
  · cases read

theorem not_element_of_cdata {node : Node} {found : Element}
    (read : cdata text = some (node, rest)) : node ≠ found.node := by
  obtain ⟨⟨data, later⟩, -, read⟩ := Option.bind_eq_some_iff.mp read
  dsimp only at read
  rw [Option.ite_none_right_eq_some] at read
  rw [← (Prod.mk.inj (Option.some.inj read.2)).1]
  exact Node.noConfusion

theorem not_element_of_instruction {node : Node} {found : Element}
    (read : instruction text = some (node, rest)) : node ≠ found.node := by
  obtain ⟨⟨data, later⟩, -, read⟩ := Option.bind_eq_some_iff.mp read
  obtain ⟨⟨target, left⟩, -, read⟩ := Option.bind_eq_some_iff.mp read
  dsimp only at read
  rw [Option.ite_none_right_eq_some] at read
  rw [← (Prod.mk.inj (Option.some.inj read.2)).1]
  exact Node.noConfusion

theorem not_element_of_data {node : Node} {found : Element}
    (read : data text = some (node, rest)) : node ≠ found.node := by
  obtain ⟨read, -, same⟩ := Option.map_eq_some_iff.mp read
  rw [← (Prod.mk.inj same).1]
  exact Node.noConfusion

/-- Only the markup of an element is an element. -/
theorem not_element_of_markup {node : Node} {found : Element}
    (kind : markup text = .leaf (some (node, rest))) :
    node ≠ found.node := by
  cases text with
  | nil => cases kind
  | cons c text =>
      simp only [markup] at kind
      split at kind
      · split at kind
        · cases kind
        · split at kind
          · exact not_element_of_comment (Markup.leaf.inj kind)
          · split at kind
            · exact not_element_of_cdata (Markup.leaf.inj kind)
            · split at kind
              · exact not_element_of_instruction (Markup.leaf.inj kind)
              · cases kind
      · exact not_element_of_data (Markup.leaf.inj kind)

theorem Element.node_injective : Function.Injective Element.node := by
  rintro ⟨name, attributes, children⟩ ⟨other, others, nodes⟩ same
  obtain ⟨rfl, rfl, rfl⟩ := Node.element.inj same
  rfl

/-- Content without nodes is empty. -/
theorem eq_of_content_nil {fuel : Nat}
    (read : content fuel text = some ([], rest)) : text = rest := by
  cases fuel with
  | zero => cases read
  | succ fuel =>
      rw [content] at read
      cases kind : markup text with
      | stop =>
          rw [kind] at read
          exact (Prod.mk.inj (Option.some.inj read)).2
      | leaf leaf =>
          rw [kind] at read
          obtain ⟨found, -, read⟩ := Option.bind_eq_some_iff.mp read
          obtain ⟨others, -, same⟩ := Option.map_eq_some_iff.mp read
          cases same
      | element later =>
          rw [kind] at read
          obtain ⟨found, -, read⟩ := Option.bind_eq_some_iff.mp read
          obtain ⟨others, -, same⟩ := Option.map_eq_some_iff.mp read
          cases same

/-- A text that is one element as a whole. -/
theorem element_of_wholeContent {found : Element}
    (whole : wholeContent text = some [found.node]) :
    ∃ rest, markup text = .element rest ∧
      element text.length rest = some (found, []) := by
  obtain ⟨⟨nodes, rest⟩, read, same⟩ := Option.bind_eq_some_iff.mp whole
  rw [Option.ite_none_right_eq_some] at same
  obtain ⟨rfl, same⟩ := same
  obtain rfl := Option.some.inj same
  rw [content] at read
  cases kind : markup text with
  | stop =>
      rw [kind] at read
      cases read
  | leaf leaf =>
      rw [kind] at read
      obtain ⟨⟨node, later⟩, rfl, read⟩ := Option.bind_eq_some_iff.mp read
      obtain ⟨others, -, same⟩ := Option.map_eq_some_iff.mp read
      have isNode := (List.cons.inj (Prod.mk.inj same).1).1
      exact absurd isNode (not_element_of_markup kind)
  | element later =>
      refine ⟨later, rfl, ?_⟩
      rw [kind] at read
      obtain ⟨⟨first, left⟩, isElement, read⟩ :=
        Option.bind_eq_some_iff.mp read
      obtain ⟨⟨others, last⟩, inside, same⟩ :=
        Option.map_eq_some_iff.mp read
      obtain ⟨sameNodes, rfl⟩ := Prod.mk.inj same
      obtain ⟨sameNode, rfl⟩ := List.cons.inj sameNodes
      rw [isElement, Element.node_injective sameNode,
        eq_of_content_nil inside]

/-- An element in front of content that begins with markup. -/
theorem wholeContent_append {found : Element} {nodes : List Node}
    {after : Text} (first : wholeContent text = some [found.node])
    (others : wholeContent after = some nodes)
    (begins : ∀ c ∈ after.head?, c = '<') :
    wholeContent (text ++ after) = some (found.node :: nodes) := by
  obtain ⟨rest, kind, isElement⟩ := element_of_wholeContent first
  cases after with
  | nil =>
      cases others
      rw [List.append_nil]
      exact first
  | cons c after =>
      obtain rfl := begins c rfl
      obtain ⟨⟨later, left⟩, read, same⟩ :=
        Option.bind_eq_some_iff.mp others
      rw [Option.ite_none_right_eq_some] at same
      obtain ⟨rfl, same⟩ := same
      obtain rfl := Option.some.inj same
      have isText := eq_cons_of_markup kind
      have legible : markup text ≠ .leaf none := by
        rw [kind]
        exact Markup.noConfusion
      have notEnd : text = [] → ['/'] <+: after := by
        intro same
        rw [isText] at same
        cases same
      have size :
          text.length + (after.length + 1) =
            (text ++ '<' :: after).length := by
        simp
      have further :=
        (parse_append after text.length).1 rest found [] isElement
      have readFirst :
          element (text ++ '<' :: after).length (rest ++ '<' :: after) =
            some (found, '<' :: after) :=
        element_mono (by omega) further
      have readOthers :
          content (text ++ '<' :: after).length ('<' :: after) =
            some (later, []) := by
        refine content_mono ?_ read
        rw [List.length_cons, ← size, isText, List.length_cons]
        omega
      rw [wholeContent, content, markup_append legible notEnd, kind]
      simp only [Markup.append]
      rw [readFirst, Option.bind_some]
      dsimp only
      rw [readOthers]
      rfl

end Elements

end Xml
