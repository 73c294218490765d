import LocationServer.TinyXml.Parsing
import LocationServer.TinyXml.Stamp

/-!
# Every parse ends inside the text

Each function of the parser goes on at a suffix of the text that it was given,
and the loops shorten it, so the fuel is never used up.  A pointer can only
leave the text at a byte that leads a longer character of UTF-8, and the
assertion of `StringEqual` only fails in a text without a `>` at its end.  The
cursor that the functions move along ends in the text as well, unless a byte
`0xEF` stands at its end.
-/

namespace LocationServer

/-- The stops that parsing a text may come to. -/
def MayStop (p : List Char) : TiXmlStop → Prop
  | .error => True
  | .assertion => ∃ last, p.getLast? = some last ∧ last ≠ '>'
  | .overrun => ∃ lead ∈ p, utf8ByteTable lead ≠ 1
  | .fuel => False

theorem MayStop.of_suffix {p rest : List Char} {stop : TiXmlStop}
    (suffix : rest <:+ p) (mayStop : MayStop rest stop) :
    MayStop p stop := by
  cases stop with
  | error => trivial
  | assertion =>
      obtain ⟨last, isLast, other⟩ := mayStop
      obtain ⟨before, rfl⟩ := suffix
      refine ⟨last, ?_, other⟩
      rw [List.getLast?_append, isLast]
      rfl
  | overrun =>
      obtain ⟨lead, member, longer⟩ := mayStop
      exact ⟨lead, suffix.subset member, longer⟩
  | fuel => exact mayStop

/-- A read goes on at a suffix that is shorter by some bytes, or stops as the
text allows. -/
def Reads {α : Type} (bytes : Nat) (p : List Char) :
    Except TiXmlStop (α × Option (List Char)) → Prop
  | .error stop => MayStop p stop
  | .ok (_, next) =>
      ∀ rest, next = some rest →
        rest <:+ p ∧ rest.length + bytes ≤ p.length

theorem Reads.of_suffix {α : Type} {bytes less : Nat} {p rest : List Char}
    {read : Except TiXmlStop (α × Option (List Char))}
    (suffix : rest <:+ p) (shorter : rest.length + less ≤ p.length + bytes)
    (reads : Reads bytes rest read) : Reads less p read := by
  cases read with
  | error stop => exact MayStop.of_suffix suffix reads
  | ok result =>
      intro next isNext
      obtain ⟨inner, length⟩ := reads next isNext
      exact ⟨inner.trans suffix, by omega⟩

theorem Reads.of_none {α : Type} (bytes : Nat) (p : List Char)
    (value : α) : Reads bytes p (.ok (value, none)) := by
  intro rest impossible
  cases impossible

theorem Reads.of_error {α : Type} (bytes : Nat) (p : List Char) :
    Reads bytes p
      (.error .error : Except TiXmlStop (α × Option (List Char))) :=
  trivial

/-- What is made of a read that went on reads further. -/
theorem Reads.bind {α β : Type} {bytes more : Nat} {p : List Char}
    {read : Except TiXmlStop (α × Option (List Char))}
    {use : α × Option (List Char) →
      Except TiXmlStop (β × Option (List Char))}
    (reads : Reads bytes p read)
    (used :
      ∀ value next, read = .ok (value, next) →
        Reads more p (use (value, next))) :
    Reads more p (read >>= use) := by
  cases read with
  | error stop => exact reads
  | ok result => exact used result.1 result.2 rfl

/-- Making something of what was read moves nothing. -/
theorem Reads.map {α β : Type} {bytes : Nat} {p : List Char}
    {read : Except TiXmlStop (α × Option (List Char))}
    (reads : Reads bytes p read) (use : α × Option (List Char) → β) :
    Reads bytes p (read >>= fun result => .ok (use result, result.2)) := by
  cases read with
  | error stop => exact reads
  | ok result => exact reads

theorem Reads.next {α : Type} {bytes : Nat} {p rest : List Char}
    {read : Except TiXmlStop (α × Option (List Char))} {value : α}
    (reads : Reads bytes p read) (isOk : read = .ok (value, some rest)) :
    rest <:+ p ∧ rest.length + bytes ≤ p.length := by
  rw [isOk] at reads
  exact reads rest rfl

/-! ## White space and names -/

theorem skipLoop_suffix (encoding : TiXmlEncoding) (p : List Char) :
    skipLoop encoding p <:+ p := by
  fun_induction skipLoop encoding p with
  | case1 a b c p mark inductionHypothesis =>
      exact inductionHypothesis.trans (List.suffix_append [a, b, c] p)
  | case2 a b c p notMark white inductionHypothesis =>
      exact inductionHypothesis.trans (List.suffix_cons a _)
  | case3 a b c p notMark notWhite => exact List.suffix_rfl
  | case4 a p short white inductionHypothesis =>
      exact inductionHypothesis.trans (List.suffix_cons a p)
  | case5 a p short notWhite => exact List.suffix_rfl
  | case6 => exact List.suffix_rfl

theorem isWhiteSpace_end : isWhiteSpace '>' = false := by decide

/-- White space does not reach behind a `>` at the end. -/
theorem skipLoop_ends {encoding : TiXmlEncoding} {p : List Char}
    (nonempty : p ≠ []) (skipped : skipLoop encoding p = []) :
    ∃ last, p.getLast? = some last ∧ last ≠ '>' := by
  fun_induction skipLoop encoding p with
  | case1 a b c p mark inductionHypothesis =>
      cases p with
      | nil =>
          refine ⟨c, rfl, ?_⟩
          rintro rfl
          simp [isByteOrderMark] at mark
      | cons d p =>
          obtain ⟨last, isLast, other⟩ :=
            inductionHypothesis (List.cons_ne_nil d p) skipped
          exact ⟨last, by simpa using isLast, other⟩
  | case2 a b c p notMark white inductionHypothesis =>
      obtain ⟨last, isLast, other⟩ :=
        inductionHypothesis (List.cons_ne_nil b _) skipped
      exact ⟨last, by simpa using isLast, other⟩
  | case3 a b c p notMark notWhite => cases skipped
  | case4 a p short white inductionHypothesis =>
      cases p with
      | nil =>
          refine ⟨a, rfl, ?_⟩
          rintro rfl
          rw [isWhiteSpace_end] at white
          cases white
      | cons d p =>
          obtain ⟨last, isLast, other⟩ :=
            inductionHypothesis (List.cons_ne_nil d p) skipped
          exact ⟨last, by simpa using isLast, other⟩
  | case5 a p short notWhite => cases skipped
  | case6 => exact absurd rfl nonempty

theorem skipLoop_head {encoding : TiXmlEncoding} {p rest : List Char}
    {d : Char} (skipped : skipLoop encoding p = d :: rest) :
    isWhiteSpace d = false := by
  fun_induction skipLoop encoding p with
  | case1 a b c p mark inductionHypothesis =>
      exact inductionHypothesis skipped
  | case2 a b c p notMark white inductionHypothesis =>
      exact inductionHypothesis skipped
  | case3 a b c p notMark notWhite =>
      cases skipped
      exact Bool.eq_false_iff.mpr notWhite
  | case4 a p short white inductionHypothesis =>
      exact inductionHypothesis skipped
  | case5 a p short notWhite =>
      cases skipped
      exact Bool.eq_false_iff.mpr notWhite
  | case6 => cases skipped

theorem skipWhiteSpace_suffix {encoding : TiXmlEncoding}
    {p rest : List Char} (skipped : skipWhiteSpace encoding p = some rest) :
    rest <:+ p := by
  rw [skipWhiteSpace] at skipped
  split at skipped
  · cases skipped
  · cases skipped
    exact skipLoop_suffix encoding p

theorem isNameByte_of_isAlpha {c : Char}
    (first : (isAlpha c || c = '_') = true) : isNameByte c = true := by
  rw [isNameByte, isAlphaNum]
  rw [isAlpha] at first
  by_cases plain : c.toNat < 127
  · rw [if_pos plain] at first ⊢
    by_cases alpha : c.isAlpha = true
    · simp [Char.isAlphanum, alpha]
    · rw [Bool.not_eq_true] at alpha
      rw [alpha, Bool.false_or] at first
      simp [first]
  · rw [if_neg plain]
    simp

theorem readName_suffix {p name rest : List Char}
    (read : readName p = some (name, rest)) :
    rest <:+ p ∧ rest.length + 1 ≤ p.length := by
  cases p with
  | nil => cases read
  | cons c p =>
      rw [readName] at read
      split at read
      · rename_i first
        cases read
        rw [List.dropWhile_cons_of_pos (isNameByte_of_isAlpha first)]
        have suffix := List.dropWhile_suffix isNameByte (l := p)
        exact ⟨suffix.trans (List.suffix_cons c p),
          Nat.succ_le_succ suffix.length_le⟩
      · cases read

/-! ## References and texts -/

theorem numericEntity_suffix {encoding : TiXmlEncoding} {base : Nat}
    {digit : Char → Option Nat} {mark : Char} {q value rest : List Char}
    (read : numericEntity encoding base digit mark q = some (value, rest)) :
    rest <:+ q := by
  rw [numericEntity] at read
  split at read
  · cases read
  · rename_i c p found
    have suffix : p <:+ q :=
      (List.suffix_cons c p).trans (found ▸ List.dropWhile_suffix _)
    split at read
    · cases read
    · cases read
      exact suffix

theorem getEntity_suffix {encoding : TiXmlEncoding}
    {p value rest : List Char}
    (read : getEntity encoding p = some (value, rest)) : rest <:+ p := by
  unfold getEntity at read
  split at read
  · exact (numericEntity_suffix read).trans (List.suffix_append ['#', 'x'] _)
  · exact (numericEntity_suffix read).trans (List.suffix_cons '#' _)
  · split at read
    · cases read
      exact List.drop_suffix _ _
    · cases read
      exact List.suffix_rfl

theorem getChar_reads (encoding : TiXmlEncoding) (c : Char)
    (p : List Char) : Reads 1 (c :: p) (getChar encoding c p) := by
  have behind : ∀ (value : List Char) (rest : List Char), rest <:+ p →
      Reads 1 (c :: p) (.ok (value, some rest)) := by
    intro value rest suffix next isNext
    cases isNext
    exact ⟨suffix.trans (List.suffix_cons c p),
      Nat.succ_le_succ suffix.length_le⟩
  have longer :
      (if encoding = .utf8 then utf8ByteTable c else 1) ≠ 1 →
        utf8ByteTable c ≠ 1 := by
    split
    · exact fun other => other
    · exact fun other => absurd rfl other
  rw [getChar]
  generalize (if encoding = .utf8 then utf8ByteTable c else 1) = length
    at longer ⊢
  by_cases single : length = 1
  · rw [if_pos single]
    by_cases isEntity : c = '&'
    · rw [if_pos isEntity]
      cases read : getEntity encoding p with
      | none => exact Reads.of_none 1 (c :: p) []
      | some result => exact behind _ _ (getEntity_suffix read)
    · rw [if_neg isEntity]
      exact behind _ _ List.suffix_rfl
  · rw [if_neg single]
    split
    · exact ⟨c, List.mem_cons_self, longer single⟩
    · exact behind _ _ (List.drop_suffix _ _)

/-- A loop of `ReadText` goes on at the end of the text or at the tag. -/
structure ReadsTo (endTag p : List Char)
    (read : Except TiXmlStop (List Char × Option (List Char))) : Prop where
  reads : Reads 0 p read
  stops : ∀ text rest, read = .ok (text, some rest) →
    rest = [] ∨ beginsWith rest endTag false = true

theorem ReadsTo.of_here (endTag : List Char) {p : List Char}
    (atTag : p = [] ∨ beginsWith p endTag false = true) :
    ReadsTo endTag p (.ok ([], some p)) where
  reads := by
    intro rest isNext
    cases isNext
    exact ⟨List.suffix_rfl, Nat.le_refl _⟩
  stops := by
    intro text rest same
    cases same
    exact atTag

theorem ReadsTo.of_none (endTag p value : List Char) :
    ReadsTo endTag p (.ok (value, none)) where
  reads := Reads.of_none 0 p value
  stops := by
    intro text rest impossible
    cases impossible

theorem ReadsTo.of_error {endTag p : List Char} {stop : TiXmlStop}
    (mayStop : MayStop p stop) : ReadsTo endTag p (.error stop) where
  reads := mayStop
  stops := by
    intro text rest impossible
    cases impossible

/-- More text in front of what a loop reads. -/
theorem ReadsTo.prepend {endTag p rest : List Char}
    {read : Except TiXmlStop (List Char × Option (List Char))}
    (readsTo : ReadsTo endTag rest read) (suffix : rest <:+ p)
    (value : List Char) :
    ReadsTo endTag p
      (read >>= fun result => .ok (value ++ result.1, result.2)) := by
  have reads : Reads 0 p read :=
    Reads.of_suffix suffix (Nat.add_le_add_right suffix.length_le 0)
      readsTo.reads
  cases read with
  | error stop => exact ReadsTo.of_error reads
  | ok result =>
      constructor
      · exact reads
      · intro text next same
        have isNext : result.2 = some next :=
          congrArg Prod.snd (Except.ok.inj same)
        exact readsTo.stops result.1 next (by rw [← isNext])

theorem readKept_reads (encoding : TiXmlEncoding) (endTag : List Char) :
    ∀ (fuel : Nat) (p : List Char), p.length ≤ fuel →
      ReadsTo endTag p (readKept encoding endTag fuel p) := by
  intro fuel
  induction fuel with
  | zero =>
      intro p enough
      rw [List.eq_nil_of_length_eq_zero (Nat.le_zero.mp enough), readKept]
      exact ReadsTo.of_here endTag (Or.inl rfl)
  | succ fuel inductionHypothesis =>
      intro p enough
      cases p with
      | nil =>
          rw [readKept]
          exact ReadsTo.of_here endTag (Or.inl rfl)
      | cons c p =>
          rw [readKept]
          split
          · rename_i atTag
            exact ReadsTo.of_here endTag (Or.inr atTag)
          · have reads := getChar_reads encoding c p
            cases read : getChar encoding c p with
            | error stop =>
                rw [read] at reads
                exact ReadsTo.of_error reads
            | ok result =>
                obtain ⟨value, next⟩ := result
                cases next with
                | none => exact ReadsTo.of_none endTag (c :: p) value
                | some rest =>
                    obtain ⟨suffix, shorter⟩ := reads.next read
                    have further := inductionHypothesis rest (by
                      rw [List.length_cons] at enough shorter
                      omega)
                    exact further.prepend suffix value

theorem ReadsTo.of_suffix {endTag p rest : List Char}
    {read : Except TiXmlStop (List Char × Option (List Char))}
    (readsTo : ReadsTo endTag rest read) (suffix : rest <:+ p) :
    ReadsTo endTag p read where
  reads :=
    Reads.of_suffix suffix (Nat.add_le_add_right suffix.length_le 0)
      readsTo.reads
  stops := readsTo.stops

theorem readCondensed_reads (encoding : TiXmlEncoding)
    (endTag : List Char) :
    ∀ (fuel : Nat) (whitespace : Bool) (p : List Char), p.length ≤ fuel →
      ReadsTo endTag p
        (readCondensed encoding endTag fuel whitespace p) := by
  intro fuel
  induction fuel with
  | zero =>
      intro whitespace p enough
      rw [List.eq_nil_of_length_eq_zero (Nat.le_zero.mp enough),
        readCondensed]
      exact ReadsTo.of_here endTag (Or.inl rfl)
  | succ fuel inductionHypothesis =>
      intro whitespace p enough
      cases p with
      | nil =>
          rw [readCondensed]
          exact ReadsTo.of_here endTag (Or.inl rfl)
      | cons c p =>
          rw [List.length_cons] at enough
          rw [readCondensed]
          split
          · rename_i atTag
            exact ReadsTo.of_here endTag (Or.inr atTag)
          · split
            · have further := inductionHypothesis true p (by omega)
              exact further.of_suffix (List.suffix_cons c p)
            · have reads := getChar_reads encoding c p
              cases read : getChar encoding c p with
              | error stop =>
                  rw [read] at reads
                  exact ReadsTo.of_error reads
              | ok result =>
                  obtain ⟨value, next⟩ := result
                  cases next with
                  | none => exact ReadsTo.of_none endTag (c :: p) _
                  | some rest =>
                      obtain ⟨suffix, shorter⟩ := reads.next read
                      rw [List.length_cons] at shorter
                      have further :=
                        inductionHypothesis false rest (by omega)
                      exact further.prepend suffix _

theorem behindTag_suffix {endTag p rest : List Char}
    (behind : behindTag endTag (some p) = some rest) :
    rest = p.drop endTag.length ∧ rest ≠ [] := by
  rw [behindTag] at behind
  split at behind
  · cases behind
  · rename_i c q found
    cases behind
    exact ⟨found.symm, List.cons_ne_nil c q⟩

theorem readUpTo_reads (encoding : TiXmlEncoding) (trimWhiteSpace : Bool)
    (endTag p : List Char) :
    ReadsTo endTag p (readUpTo encoding trimWhiteSpace endTag p) := by
  rw [readUpTo]
  cases trimWhiteSpace with
  | false => exact readKept_reads encoding endTag _ p (Nat.le_refl _)
  | true =>
      rw [if_pos rfl]
      cases skipped : skipWhiteSpace encoding p with
      | none => exact ReadsTo.of_none endTag p []
      | some start =>
          have reads :=
            readCondensed_reads encoding endTag _ false start
              (Nat.le_refl _)
          exact reads.of_suffix (skipWhiteSpace_suffix skipped)

/-- A text that is read goes on behind its tag. -/
theorem readText_next {encoding : TiXmlEncoding} {trimWhiteSpace : Bool}
    {endTag p text rest : List Char}
    (read :
      readText encoding trimWhiteSpace endTag p = .ok (text, some rest)) :
    ∃ found, found <:+ p ∧ beginsWith found endTag false = true ∧
      rest = found.drop endTag.length := by
  have readsTo := readUpTo_reads encoding trimWhiteSpace endTag p
  rw [readText] at read
  cases upTo : readUpTo encoding trimWhiteSpace endTag p with
  | error stop =>
      rw [upTo] at read
      cases read
  | ok result =>
      obtain ⟨text', next⟩ := result
      rw [upTo] at read
      have behind : behindTag endTag next = some rest :=
        congrArg Prod.snd (Except.ok.inj read)
      cases next with
      | none => cases behind
      | some found =>
          obtain ⟨isRest, nonempty⟩ := behindTag_suffix behind
          obtain ⟨suffix, -⟩ := readsTo.reads.next upTo
          refine ⟨found, suffix, ?_, isRest⟩
          rcases readsTo.stops text' found upTo with ended | atTag
          · rw [ended, List.drop_nil] at isRest
            exact absurd isRest nonempty
          · exact atTag

theorem readText_reads (encoding : TiXmlEncoding) (trimWhiteSpace : Bool)
    (endTag p : List Char) :
    Reads 0 p (readText encoding trimWhiteSpace endTag p) := by
  have reads := (readUpTo_reads encoding trimWhiteSpace endTag p).reads
  cases read : readText encoding trimWhiteSpace endTag p with
  | error stop =>
      rw [readText] at read
      cases upTo : readUpTo encoding trimWhiteSpace endTag p with
      | error other =>
          rw [upTo] at read reads
          cases read
          exact reads
      | ok result =>
          rw [upTo] at read
          cases read
  | ok result =>
      intro rest isNext
      obtain ⟨found, suffix, -, rfl⟩ :=
        @readText_next _ _ _ _ result.1 rest (by rw [read, ← isNext])
      have behind := (List.drop_suffix endTag.length found).trans suffix
      exact ⟨behind, behind.length_le⟩

/-! ## Attributes and declarations -/

theorem readUnquoted_suffix {p value rest : List Char}
    (read : readUnquoted p = some (value, rest)) : rest <:+ p := by
  induction p generalizing value with
  | nil =>
      cases read
      exact List.suffix_rfl
  | cons c p inductionHypothesis =>
      rw [readUnquoted] at read
      split at read
      · cases read
        exact List.suffix_rfl
      · split at read
        · cases read
        · obtain ⟨inner, isInner, same⟩ := Option.map_eq_some_iff.mp read
          cases same
          exact (inductionHypothesis isInner).trans (List.suffix_cons c p)

theorem readAttributeValue_reads (encoding : TiXmlEncoding) (c : Char)
    (p : List Char) :
    Reads 0 (c :: p) (readAttributeValue encoding c p) := by
  have quoted : ∀ endTag,
      Reads 0 (c :: p) (readText encoding false endTag p) := by
    intro endTag
    exact Reads.of_suffix (List.suffix_cons c p)
      (Nat.le_succ p.length) (readText_reads encoding false endTag p)
  rw [readAttributeValue]
  split
  · exact quoted ['\'']
  · split
    · exact quoted ['"']
    · cases read : readUnquoted (c :: p) with
      | none => exact Reads.of_none 0 (c :: p) []
      | some result =>
          intro rest isNext
          cases isNext
          have suffix := readUnquoted_suffix read
          exact ⟨suffix, suffix.length_le⟩

/-- An attribute takes at least its name. -/
theorem parseAttribute_reads (encoding : TiXmlEncoding) (p : List Char) :
    Reads 1 p (parseAttribute encoding p) := by
  rw [parseAttribute]
  cases skipped : skipWhiteSpace encoding p with
  | none => exact Reads.of_none 1 p _
  | some start =>
      dsimp only
      cases named : readName start with
      | none => exact Reads.of_none 1 p _
      | some result =>
          obtain ⟨name, behind⟩ := result
          obtain ⟨suffix, shorter⟩ := readName_suffix named
          have startSuffix := skipWhiteSpace_suffix skipped
          have startLength := startSuffix.length_le
          dsimp only
          split
          · rename_i q equals
            have qSuffix := skipWhiteSpace_suffix equals
            split
            · rename_i c q' skippedValue
              have valueSuffix : c :: q' <:+ p :=
                (skipWhiteSpace_suffix skippedValue).trans
                  ((List.suffix_cons '=' q).trans
                    (qSuffix.trans (suffix.trans startSuffix)))
              have valueLength := (skipWhiteSpace_suffix skippedValue).length_le
              have qLength := qSuffix.length_le
              have reads := readAttributeValue_reads encoding c q'
              have onward : Reads 1 p (readAttributeValue encoding c q') :=
                Reads.of_suffix valueSuffix (by
                  rw [List.length_cons] at qLength
                  omega) reads
              apply onward.bind
              intro value next read rest isNext
              exact onward.next (by rw [read, ← isNext])
            · exact Reads.of_none 1 p _
          · exact Reads.of_none 1 p _

theorem stringEqual_of_nonempty {p : List Char} (nonempty : p ≠ [])
    (tag : List Char) (ignoreCase : Bool) :
    stringEqual p tag ignoreCase = .ok (beginsWith p tag ignoreCase) := by
  rw [stringEqual, if_neg nonempty]

theorem declarationLoop_reads (encoding : TiXmlEncoding) :
    ∀ (fuel : Nat) (declared p : List Char), p.length ≤ fuel →
      Reads 0 p (declarationLoop encoding fuel declared p) := by
  intro fuel
  induction fuel with
  | zero =>
      intro declared p enough
      rw [List.eq_nil_of_length_eq_zero (Nat.le_zero.mp enough),
        declarationLoop]
      exact Reads.of_none 0 [] declared
  | succ fuel inductionHypothesis =>
      intro declared p enough
      cases p with
      | nil =>
          rw [declarationLoop]
          exact Reads.of_none 0 [] declared
      | cons c p =>
          rw [List.length_cons] at enough
          rw [declarationLoop]
          split
          · intro rest isNext
            cases isNext
            exact ⟨List.suffix_cons c p, Nat.le_succ p.length⟩
          · rename_i notEnd
            have skipped :
                skipWhiteSpace encoding (c :: p) =
                  some (skipLoop encoding (c :: p)) :=
              if_neg (List.cons_ne_nil c p)
            have suffix := skipLoop_suffix encoding (c :: p)
            have ends := @skipLoop_ends encoding _ (List.cons_ne_nil c p)
            have head := fun d q => @skipLoop_head encoding (c :: p) q d
            rw [skipped, Option.getD_some]
            generalize skipLoop encoding (c :: p) = start
              at suffix ends head ⊢
            cases start with
            | nil => exact ends rfl
            | cons d q =>
                dsimp only
                have length := suffix.length_le
                rw [List.length_cons, List.length_cons] at length
                rw [stringEqual_of_nonempty (List.cons_ne_nil d q),
                  stringEqual_of_nonempty (List.cons_ne_nil d q),
                  stringEqual_of_nonempty (List.cons_ne_nil d q)]
                dsimp only [bind, Except.bind]
                split
                · have reads := parseAttribute_reads encoding (d :: q)
                  cases read : parseAttribute encoding (d :: q) with
                  | error stop =>
                      rw [read] at reads
                      exact MayStop.of_suffix suffix reads
                  | ok result =>
                      obtain ⟨⟨name, value⟩, next⟩ := result
                      cases next with
                      | none => exact Reads.of_none 0 (c :: p) _
                      | some rest =>
                          obtain ⟨inner, shorter⟩ := reads.next read
                          rw [List.length_cons] at shorter
                          apply Reads.of_suffix (inner.trans suffix) _
                            (inductionHypothesis _ rest (by omega))
                          rw [List.length_cons]
                          omega
                · have inner :=
                    List.dropWhile_suffix
                      (fun c => c ≠ '>' && !isWhiteSpace c) (l := d :: q)
                  have shorter :
                      ((d :: q).dropWhile
                        fun c => c ≠ '>' && !isWhiteSpace c).length ≤
                        p.length := by
                    by_cases isEnd : d = '>'
                    · subst isEnd
                      rw [List.dropWhile_cons_of_neg (by simp),
                        List.length_cons]
                      have other : ('>' :: q).length ≠ (c :: p).length := by
                        intro same
                        have whole := suffix.eq_of_length same
                        exact notEnd (List.cons.inj whole).1.symm
                      rw [List.length_cons, List.length_cons] at other
                      omega
                    · rw [List.dropWhile_cons_of_pos (by
                        simp [isEnd, head d q rfl])]
                      exact (List.dropWhile_suffix _).length_le.trans
                        (by omega)
                  apply Reads.of_suffix (inner.trans suffix) _
                    (inductionHypothesis _ _ (shorter.trans (by omega)))
                  rw [List.length_cons]
                  omega

/-! ## Nodes without content -/

theorem findTag_suffix (tag p : List Char) : findTag tag p <:+ p := by
  induction p with
  | nil => exact List.suffix_rfl
  | cons c p inductionHypothesis =>
      rw [findTag]
      split
      · exact List.suffix_rfl
      · exact inductionHypothesis.trans (List.suffix_cons c p)

theorem length_add_one_le {c : Char} {p rest : List Char}
    (suffix : rest <:+ p) : rest.length + 1 ≤ (c :: p).length :=
  Nat.succ_le_succ suffix.length_le

/-- What goes on behind the first byte. -/
theorem Reads.of_tail {α : Type} {c : Char} {p : List Char}
    {next : Option (List Char)} (value : α)
    (suffix : ∀ rest, next = some rest → rest <:+ p) :
    Reads 1 (c :: p) (.ok (value, next)) := by
  intro rest isNext
  have inner := suffix rest isNext
  exact ⟨inner.trans (List.suffix_cons c p), length_add_one_le inner⟩

theorem parseUnknown_next {c : Char} {p rest : List Char}
    (next : parseUnknown (c :: p) = some rest) : rest <:+ p := by
  rw [parseUnknown] at next
  split at next
  · cases next
    exact List.nil_suffix
  · rename_i d q found
    cases next
    exact (List.suffix_cons d rest).trans (found ▸ List.dropWhile_suffix _)

theorem parseComment_next {c : Char} {p rest : List Char}
    (next : parseComment (c :: p) = some rest) : rest <:+ p := by
  cases next
  exact (List.drop_suffix 3 _).trans
    ((findTag_suffix _ _).trans (List.drop_suffix 3 p))

theorem parseCdata_next {c : Char} {p rest : List Char}
    (next : (parseCdata (c :: p)).2 = some rest) : rest <:+ p := by
  rw [(behindTag_suffix next).1]
  exact (List.drop_suffix _ _).trans
    ((findTag_suffix _ _).trans (List.drop_suffix 8 p))

theorem parseDeclaration_reads (encoding : TiXmlEncoding) (c : Char)
    (p : List Char) :
    Reads 1 (c :: p) (parseDeclaration encoding (c :: p)) := by
  have suffix := List.drop_suffix 4 p
  have shorter : (p.drop 4).length + 1 ≤ (c :: p).length :=
    length_add_one_le suffix
  exact Reads.of_suffix (suffix.trans (List.suffix_cons c p)) shorter
    (declarationLoop_reads encoding _ [] _ (Nat.le_refl _))

/-! ## Elements -/

/-- The same of a start tag. -/
def ReadsTag (p : List Char) :
    Except TiXmlStop (List (List Char × List Char) × Bool × List Char) →
      Prop
  | .error stop => MayStop p stop
  | .ok (_, _, rest) => rest <:+ p ∧ rest.length + 1 ≤ p.length

theorem ReadsTag.of_suffix {p rest : List Char}
    {read :
      Except TiXmlStop (List (List Char × List Char) × Bool × List Char)}
    (suffix : rest <:+ p) (reads : ReadsTag rest read) :
    ReadsTag p read := by
  cases read with
  | error stop => exact MayStop.of_suffix suffix reads
  | ok result =>
      exact ⟨reads.1.trans suffix, reads.2.trans suffix.length_le⟩

theorem readAttributes_reads (encoding : TiXmlEncoding) :
    ∀ (fuel : Nat) (attributes : List (List Char × List Char))
      (p : List Char), p ≠ [] → p.length ≤ fuel →
        ReadsTag p (readAttributes encoding fuel attributes p) := by
  intro fuel
  induction fuel with
  | zero =>
      intro attributes p nonempty enough
      exact absurd (List.eq_nil_of_length_eq_zero (Nat.le_zero.mp enough))
        nonempty
  | succ fuel inductionHypothesis =>
      intro attributes p nonempty enough
      rw [readAttributes]
      cases skipped : skipWhiteSpace encoding p with
      | none => exact trivial
      | some start =>
          have suffix := skipWhiteSpace_suffix skipped
          have length := suffix.length_le
          apply ReadsTag.of_suffix suffix
          dsimp only
          split
          · exact trivial
          · exact trivial
          · rename_i q same
            cases same
            split
            · exact ⟨List.suffix_append ['/', '>'] _,
                length_add_one_le (List.suffix_cons '>' _)⟩
            · exact trivial
          · rename_i q same
            cases same
            exact ⟨List.suffix_cons '>' q, Nat.le_refl _⟩
          · rename_i c q notEmptyTag notEnd same
            cases same
            have reads := parseAttribute_reads encoding (c :: q)
            cases read : parseAttribute encoding (c :: q) with
            | error stop =>
                rw [read] at reads
                exact reads
            | ok result =>
                obtain ⟨pair, next⟩ := result
                dsimp only [bind, Except.bind]
                cases next with
                | none => exact trivial
                | some rest =>
                    obtain ⟨inner, shorter⟩ := reads.next read
                    cases rest with
                    | nil => exact trivial
                    | cons d rest =>
                        dsimp only
                        split
                        · exact trivial
                        · exact ReadsTag.of_suffix inner
                            (inductionHypothesis _ _
                              (List.cons_ne_nil d rest) (by omega))

theorem identify_begins {p : List Char} {kind : TiXmlNodeType}
    (identified : identify p = some kind) : ∃ q, p = '<' :: q := by
  unfold identify at identified
  split at identified
  · exact ⟨_, rfl⟩
  · cases identified

/-- The text that stands in front of a node or an end tag goes on at its
`<`. -/
theorem readText_before_tag {encoding : TiXmlEncoding} {c : Char}
    {p text rest : List Char} (notTag : c ≠ '<')
    (read : readText encoding true ['<'] (c :: p) = .ok (text, some rest)) :
    '<' :: rest <:+ p := by
  obtain ⟨found, suffix, begins, isRest⟩ := readText_next read
  cases found with
  | nil => cases begins
  | cons d q =>
      obtain ⟨rfl, -⟩ :=
        List.cons_prefix_cons.mp (beginsWith_iff_starts.mp begins)
      rw [isRest]
      obtain whole | inner := List.suffix_cons_iff.mp suffix
      · exact absurd (List.cons.inj whole).1.symm notTag
      · exact inner

/-- Content that goes on inside its text. -/
def ContentReads (encoding : TiXmlEncoding) (fuel : Nat) : Prop :=
  ∀ p : List Char, p.length + 3 ≤ fuel →
    Reads 0 p (readValue encoding fuel p)

theorem parseElement_reads {encoding : TiXmlEncoding} {fuel : Nat}
    (content : ContentReads encoding fuel) {p : List Char}
    (enough : p.length + 2 ≤ fuel + 1) :
    Reads 3 ('<' :: p) (parseElement encoding (fuel + 1) ('<' :: p)) := by
  rw [parseElement, List.drop_one, List.tail_cons]
  cases skipped : skipWhiteSpace encoding p with
  | none =>
      have ended : p = [] := by
        by_contra nonempty
        rw [skipWhiteSpace, if_neg nonempty] at skipped
        cases skipped
      subst ended
      exact ⟨'<', rfl, by decide⟩
  | some start =>
      have suffix := skipWhiteSpace_suffix skipped
      have length := suffix.length_le
      dsimp only
      split
      · exact trivial
      · exact trivial
      · rename_i name c q named
        obtain ⟨nameSuffix, nameShorter⟩ := readName_suffix named
        have whole := (nameSuffix.trans suffix).trans (List.suffix_cons '<' p)
        have tag := readAttributes_reads encoding (c :: q).length [] (c :: q)
          (List.cons_ne_nil c q) (Nat.le_refl _)
        cases attributesRead :
            readAttributes encoding (c :: q).length [] (c :: q) with
        | error stop =>
            rw [attributesRead] at tag
            exact MayStop.of_suffix whole tag
        | ok result =>
            obtain ⟨attributes, isEmpty, behind⟩ := result
            rw [attributesRead] at tag
            obtain ⟨tagSuffix, tagShorter⟩ := tag
            have behindSuffix := tagSuffix.trans whole
            dsimp only [bind, Except.bind]
            split
            · intro rest isNext
              cases isNext
              refine ⟨behindSuffix, ?_⟩
              rw [List.length_cons]
              omega
            · have inner := content behind (by omega)
              cases contentRead : readValue encoding fuel behind with
              | error stop =>
                  rw [contentRead] at inner
                  exact MayStop.of_suffix behindSuffix inner
              | ok result =>
                  obtain ⟨children, next⟩ := result
                  cases next with
                  | none => exact trivial
                  | some found =>
                      obtain ⟨foundSuffix, -⟩ := inner.next contentRead
                      dsimp only
                      split
                      · split
                        · rename_i rest closed
                          have endSuffix : rest <:+ behind :=
                            ((List.suffix_cons '>' rest).trans
                              ((skipWhiteSpace_suffix closed).trans
                                (List.drop_suffix _ _))).trans foundSuffix
                          have endLength := endSuffix.length_le
                          intro rest' isNext
                          cases isNext
                          refine ⟨endSuffix.trans behindSuffix, ?_⟩
                          rw [List.length_cons]
                          omega
                        · exact trivial
                      · exact trivial

/-- Nodes that go on behind their first byte. -/
def NodesRead (encoding : TiXmlEncoding) (fuel : Nat) : Prop :=
  ∀ (kind : TiXmlNodeType) (p : List Char), p.length + 3 ≤ fuel →
    Reads 1 ('<' :: p) (parseNode encoding fuel kind ('<' :: p))

theorem readValue_reads {encoding : TiXmlEncoding} {fuel : Nat}
    (content : ContentReads encoding fuel)
    (nodes : NodesRead encoding fuel) {p : List Char}
    (enough : p.length + 3 ≤ fuel + 1) :
    Reads 0 p (readValue encoding (fuel + 1) p) := by
  have onward : ∀ {rest : List Char}, rest <:+ p →
      rest.length + 1 ≤ p.length →
        Reads 0 p (readValue encoding fuel rest) := by
    intro rest suffix shorter
    exact Reads.of_suffix suffix (by omega) (content rest (by omega))
  rw [readValue]
  cases skipped : skipWhiteSpace encoding p with
  | none => exact trivial
  | some start =>
      have suffix := skipWhiteSpace_suffix skipped
      have length := suffix.length_le
      cases start with
      | nil => exact trivial
      | cons c q =>
          rw [List.length_cons] at length
          dsimp only
          split
          · rename_i notTag
            have reads := readText_reads encoding true ['<'] (c :: q)
            cases textRead : readText encoding true ['<'] (c :: q) with
            | error stop =>
                rw [textRead] at reads
                exact MayStop.of_suffix suffix reads
            | ok result =>
                obtain ⟨text, next⟩ := result
                cases next with
                | none => exact trivial
                | some rest =>
                    have before := readText_before_tag notTag textRead
                    have shorter := before.length_le
                    have further :=
                      onward
                        ((before.trans (List.suffix_cons c q)).trans suffix)
                        (by omega)
                    exact further.map _
          · split
            · intro rest isNext
              cases isNext
              exact ⟨suffix, suffix.length_le⟩
            · cases identified : identify (c :: q) with
              | none => exact trivial
              | some kind =>
                  obtain ⟨q', same⟩ := identify_begins identified
                  cases same
                  have reads := nodes kind q (by omega)
                  dsimp only
                  cases read : parseNode encoding fuel kind ('<' :: q) with
                  | error stop =>
                      rw [read] at reads
                      exact MayStop.of_suffix suffix reads
                  | ok result =>
                      obtain ⟨⟨child, declared⟩, next⟩ := result
                      cases next with
                      | none => exact trivial
                      | some rest =>
                          obtain ⟨inner, shorter⟩ := reads.next read
                          rw [List.length_cons] at shorter
                          have further :=
                            onward (inner.trans suffix) (by omega)
                          exact further.map _

theorem parseNode_reads {encoding : TiXmlEncoding} {fuel : Nat}
    (elements :
      ∀ p : List Char, p.length + 2 ≤ fuel →
        Reads 3 ('<' :: p) (parseElement encoding fuel ('<' :: p)))
    (kind : TiXmlNodeType) {p : List Char}
    (enough : p.length + 3 ≤ fuel + 1) :
    Reads 1 ('<' :: p) (parseNode encoding (fuel + 1) kind ('<' :: p)) := by
  cases kind with
  | declaration =>
      rw [parseNode]
      exact (parseDeclaration_reads encoding '<' p).map _
  | comment =>
      rw [parseNode]
      exact Reads.of_tail _ fun rest next => parseComment_next next
  | cdata =>
      rw [parseNode]
      exact Reads.of_tail _ fun rest next => parseCdata_next next
  | unknown =>
      rw [parseNode]
      exact Reads.of_tail _ fun rest next => parseUnknown_next next
  | element =>
      rw [parseNode]
      have reads : Reads 1 ('<' :: p) (parseElement encoding fuel ('<' :: p)) :=
        Reads.of_suffix List.suffix_rfl (by omega) (elements p (by omega))
      exact reads.map _

/-- With fuel for each byte of the text, content and nodes go on inside it. -/
theorem nodes_read (encoding : TiXmlEncoding) (fuel : Nat) :
    ContentReads encoding fuel ∧ NodesRead encoding fuel := by
  have all :
      (∀ p : List Char, p.length + 2 ≤ fuel →
        Reads 3 ('<' :: p) (parseElement encoding fuel ('<' :: p))) ∧
        ContentReads encoding fuel ∧ NodesRead encoding fuel := by
    induction fuel with
    | zero =>
        exact ⟨fun p => by omega, fun p => by omega, fun kind p => by omega⟩
    | succ fuel inductionHypothesis =>
        obtain ⟨elements, content, nodes⟩ := inductionHypothesis
        exact
          ⟨fun p enough => parseElement_reads content enough,
            fun p enough => readValue_reads content nodes enough,
            fun kind p enough => parseNode_reads elements kind enough⟩
  exact all.2

/-! ## Documents -/

theorem documentLoop_stops {fuel : Nat} :
    ∀ (count : Nat) (encoding : TiXmlEncoding) (p : List Char),
      p.length ≤ count → p.length + 2 ≤ fuel →
        ∀ stop, documentLoop fuel count encoding p = .error stop →
          MayStop p stop := by
  intro count
  induction count with
  | zero =>
      intro encoding p shorter enough stop stopped
      rw [List.eq_nil_of_length_eq_zero (Nat.le_zero.mp shorter),
        documentLoop] at stopped
      cases stopped
  | succ count inductionHypothesis =>
      intro encoding p shorter enough stop stopped
      cases p with
      | nil =>
          rw [documentLoop] at stopped
          cases stopped
      | cons c p =>
          rw [documentLoop] at stopped
          cases identified : identify (c :: p) with
          | none =>
              rw [identified] at stopped
              cases stopped
          | some kind =>
              rw [identified] at stopped
              obtain ⟨q, same⟩ := identify_begins identified
              cases same
              rw [List.length_cons] at shorter enough
              have reads := (nodes_read encoding fuel).2 kind p (by omega)
              dsimp only at stopped
              cases read : parseNode encoding fuel kind ('<' :: p) with
              | error other =>
                  rw [read] at stopped reads
                  cases stopped
                  exact reads
              | ok result =>
                  obtain ⟨⟨node, declared⟩, next⟩ := result
                  rw [read] at stopped
                  dsimp only [bind, Except.bind, Option.bind] at stopped
                  split at stopped
                  · cases stopped
                  · rename_i start skipped
                    split at skipped
                    · cases skipped
                    · rename_i rest
                      obtain ⟨inner, less⟩ := reads.next read
                      have suffix := skipWhiteSpace_suffix skipped
                      have length := suffix.length_le
                      rw [List.length_cons] at less
                      split at stopped
                      · rename_i other further
                        cases stopped
                        exact MayStop.of_suffix (suffix.trans inner)
                          (inductionHypothesis _ start (by omega) (by omega)
                            _ further)
                      · cases stopped

theorem parseDocument_stops {p : List Char} {stop : TiXmlStop}
    (stopped : parseDocument p = .error stop) : MayStop p stop := by
  rw [parseDocument] at stopped
  split at stopped
  · cases stopped
    exact trivial
  · rename_i start skipped
    have suffix := skipWhiteSpace_suffix skipped
    have length := suffix.length_le
    cases looped :
        documentLoop (p.length + 2) p.length
          (if beginsWith p ['\xef', '\xbb', '\xbf'] false then
            TiXmlEncoding.utf8
          else .unknown) start with
    | error other =>
        rw [looped] at stopped
        cases stopped
        exact MayStop.of_suffix suffix
          (documentLoop_stops _ _ start length (by omega) _ looped)
    | ok nodes =>
        rw [looped] at stopped
        dsimp only [bind, Except.bind] at stopped
        split at stopped
        · cases stopped
          exact trivial
        · cases stopped

/-- How parsing a text without a `0xEF` at its end ends: with a tree, with an
error of the document, at an assertion when the text has no `>` at its end, or
outside the text when it has the lead of a longer character.  On the way the
cursor of the document gets to every byte that it is sent to, or past it. -/
theorem parse_ends (p : List Char) (complete : MarksComplete p) :
    (∀ (data : TiXmlParsingData) (now : List Char)
        (encoding : TiXmlEncoding), data.stamp <:+ p → now <:+ p →
      ∃ rounds moved, data.stampTo now encoding rounds = some moved ∧
        moved.stamp <:+ p) ∧
      ((∃ nodes, parseDocument p = .ok nodes) ∨
        parseDocument p = .error .error ∨
        (parseDocument p = .error .assertion ∧
          ∃ last, p.getLast? = some last ∧ last ≠ '>') ∨
        (parseDocument p = .error .overrun ∧
          ∃ lead ∈ p, utf8ByteTable lead ≠ 1)) := by
  constructor
  · intro data now encoding
    exact (stampTo_ends_iff p encoding).mpr (fun _ => complete) data now
  cases parsed : parseDocument p with
  | ok nodes => exact Or.inl ⟨nodes, rfl⟩
  | error stop =>
      have mayStop := parseDocument_stops parsed
      cases stop with
      | error => exact Or.inr (Or.inl rfl)
      | assertion => exact Or.inr (Or.inr (Or.inl ⟨rfl, mayStop⟩))
      | overrun => exact Or.inr (Or.inr (Or.inr ⟨rfl, mayStop⟩))
      | fuel => exact mayStop.elim

/-- An element that ends in its own tag. -/
theorem parse_ends_empty_tag :
    (∃ nodes, parseDocument "<a/>".toList = .ok nodes) ∨
      parseDocument "<a/>".toList = .error .error ∨
      (parseDocument "<a/>".toList = .error .assertion ∧
        ∃ last, "<a/>".toList.getLast? = some last ∧ last ≠ '>') ∨
      (parseDocument "<a/>".toList = .error .overrun ∧
        ∃ lead ∈ "<a/>".toList, utf8ByteTable lead ≠ 1) :=
  (parse_ends "<a/>".toList (by decide)).2

end LocationServer
