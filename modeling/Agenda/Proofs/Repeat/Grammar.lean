import Agenda.Proofs.Repeat.Range
import Agenda.Proofs.Repeat.Search
import Agenda.Proofs.Text.Words

/-!
The grammar of written rules. What a rule says depends on its words alone, and each list of words
says one thing: a rule, or what is wrong with it. An interval is a number without a bound on its
digits; a reader that adds them up in 32 bits still finds the same intervals.
-/

namespace Agenda.Repeat

/-- Digits of an allowed number of days, however many zeros precede it. -/
structure IsInterval (word : List Char) (n : Nat) : Prop where
  digits : ∀ c ∈ word, c.isDigit
  value : Nat.ofDigitChars 10 word 0 = n
  positive : 0 < n
  allowed : n ≤ 400

theorem IsInterval.ne_nil {word : List Char} {n : Nat} (h : IsInterval word n) : word ≠ [] := by
  rintro rfl
  exact Nat.ne_of_lt h.positive h.value

/-- What the words of a text say, a case for each way to read them and for each way to refuse. -/
inductive Says (text : String) : List (List Char) → Except Error Rule → Prop where
  | blank : Says text [] (.error (.malformed text))
  | daily {word : List Char} {n : Nat} (h : IsInterval word n) :
      Says text [['d'], word] (.ok (.daily n h.positive))
  | interval {word : List Char} (h : ∀ n, ¬ IsInterval word n) :
      Says text [['d'], word] (.error (.invalidInterval (String.ofList word)))
  | count {words : List (List Char)} (h : words.length ≠ 1) :
      Says text (['d'] :: words) (.error (.invalidInterval text))
  | yearly {words : List (List Char)} : Says text (['y'] :: words) (.ok .yearly)
  | unsupported {word : List Char} {words : List (List Char)} (hd : word ≠ ['d'])
      (hy : word ≠ ['y']) : Says text (word :: words) (.error (.unsupported (String.ofList word)))

/-- What a text says by its words, which are its pieces between blanks. -/
def Reads (text : String) (outcome : Except Error Rule) : Prop :=
  Says text ((text.toList.splitOnP Blank.isBlank).filter fun word => !word.isEmpty) outcome

/-- The error lies in the rule, not in its absence, in the start or in the calendar. -/
def Error.BlamesRule : Error → Prop
  | malformed _ | invalidInterval _ | unsupported _ => True
  | emptyRule | invalidStart _ | outOfRange _ => False

section Grammar

variable {text : String} {word : List Char} {words : List (List Char)} {n : Nat}
  {outcome outcome' : Except Error Rule} {cause : Error}

theorem Says.unique (h : Says text words outcome) (h' : Says text words outcome') :
    outcome = outcome' := by
  cases h with
  | blank => cases h'; rfl
  | daily hn =>
      cases h' with
      | daily hn' =>
          cases hn.value.symm.trans hn'.value
          rfl
      | interval hnone => exact absurd hn (hnone _)
      | count hlen => exact absurd rfl hlen
      | unsupported hd => exact absurd rfl hd
  | interval hnone =>
      cases h' with
      | daily hn => exact absurd hn (hnone _)
      | interval => rfl
      | count hlen => exact absurd rfl hlen
      | unsupported hd => exact absurd rfl hd
  | count hlen =>
      cases h' with
      | daily | interval => exact absurd rfl hlen
      | count => rfl
      | unsupported hd => exact absurd rfl hd
  | yearly =>
      cases h' with
      | yearly => rfl
      | unsupported _ hy => exact absurd rfl hy
  | unsupported hd hy =>
      cases h' with
      | daily | interval | count => exact absurd rfl hd
      | yearly => exact absurd rfl hy
      | unsupported => rfl

theorem reads_iff_says_words :
    Reads text outcome ↔ Says text (Blank.words text.toList) outcome := by
  rw [Reads, Blank.words_eq_filter_splitOnP]

theorem Says.blamesRule (h : Says text words (.error cause)) : cause.BlamesRule := by
  cases h <;> trivial

theorem says_ofInterval? (text : String) (word : List Char) :
    Says text [['d'], word] (Rule.ofInterval? word) := by
  rw [Rule.ofInterval?]
  split
  · rename_i h
    exact .daily ⟨List.all_eq_true.1 h.2.1, rfl, h.2.2.1, h.2.2.2⟩
  · rename_i h
    refine .interval fun n hn => h ?_
    have hvalue : Numeral.value word = n := hn.value
    exact ⟨hn.ne_nil, List.all_eq_true.2 hn.digits, hvalue ▸ hn.positive, hvalue ▸ hn.allowed⟩

theorem reads_ofText (h : text ≠ "") : Reads text (Rule.ofText text) := by
  rw [reads_iff_says_words, Rule.ofText, if_neg h]
  split
  · rename_i hwords
    rw [hwords]
    exact .blank
  · rename_i words hwords
    rw [hwords]
    split
    · exact says_ofInterval? text _
    · rename_i hone
      refine .count fun hlen => ?_
      obtain ⟨word, rfl⟩ := List.length_eq_one_iff.1 hlen
      exact hone word rfl
  · rename_i hwords
    rw [hwords]
    exact .yearly
  · rename_i word words hd hy hwords
    rw [hwords]
    refine .unsupported ?_ ?_
    · rintro rfl
      exact hd rfl
    · rintro rfl
      exact hy rfl

theorem ofText_eq_iff_reads (h : text ≠ "") : Rule.ofText text = outcome ↔ Reads text outcome :=
  ⟨fun heq => heq ▸ reads_ofText h, fun hreads => (reads_ofText h).unique hreads⟩

theorem blamesRule_of_ofText (h : text ≠ "") (hcause : Rule.ofText text = .error cause) :
    cause.BlamesRule :=
  Says.blamesRule ((ofText_eq_iff_reads h).1 hcause)

theorem reads_malformed_iff :
    Reads text (.error (.malformed text)) ↔ ∀ c ∈ text.toList, Blank.isBlank c = true := by
  rw [reads_iff_says_words, ← Blank.words_eq_nil_iff]
  constructor
  · intro h
    generalize Blank.words text.toList = words at h
    cases h
    rfl
  · intro h
    rw [h]
    exact .blank

end Grammar

/-! The shortest form of a rule. -/

theorem words_daily (n : Nat) (positive : 0 < n) :
    Blank.words (Rule.daily n positive).text.toList = [['d'], Numeral.digits n] := by
  have hlist : (Rule.daily n positive).text.toList = ['d'] ++ ' ' :: Numeral.digits n := by
    simp [Rule.text, Numeral.text]
  have hdigits : ∀ c ∈ Numeral.digits n, Blank.isBlank c = false := fun _ hc =>
    Blank.isBlank_of_isDigit (Numeral.isDigit_of_mem_digits hc)
  rw [hlist, Blank.words_append_cons _ _ (by decide),
    Blank.words_eq_singleton (Numeral.digits_ne_nil n) hdigits]
  rfl

theorem text_ne_empty (rule : Rule) : rule.text ≠ "" := by
  cases rule <;> simp [Rule.text]

theorem ofText_text {rule : Rule} (h : rule.Allowed) : Rule.ofText rule.text = .ok rule := by
  rw [ofText_eq_iff_reads (text_ne_empty rule), reads_iff_says_words]
  cases rule with
  | daily n positive =>
      rw [words_daily]
      exact .daily ⟨fun _ hc => Numeral.isDigit_of_mem_digits hc, Numeral.value_digits n, positive, h⟩
  | yearly => exact .yearly

/-! Intervals in 32 bits. -/

/-- The interval that a word gives if its digits are added up in 32 bits. -/
def boundedInterval? (word : List Char) : Option Nat :=
  if word ≠ [] ∧ word.all Char.isDigit then
    match Numeral.natural Rule.max32 word with
    | .ok n => if 0 < n ∧ n ≤ maxInterval then some n else none
    | .error _ => none
  else none

theorem boundedInterval?_eq_some_iff {word : List Char} {n : Nat} :
    boundedInterval? word = some n ↔ IsInterval word n := by
  constructor
  · intro h
    rw [boundedInterval?] at h
    split at h
    · rename_i hword
      have hdigits := List.all_eq_true.1 hword.2
      rw [Numeral.natural_eq_readOn hword.1 hdigits] at h
      split at h
      · rename_i m hm
        split at h
        · rename_i hallowed
          cases h
          exact ⟨hdigits, (Numeral.readOn_eq_ok hm).symm, hallowed.1, hallowed.2⟩
        · cases h
      · cases h
    · cases h
  · intro h
    -- No digit of an interval, nor a zero before it, leads beyond 32 bits.
    have hmax : Nat.ofDigitChars 10 word 0 ≤ Rule.max32 :=
      Nat.le_trans (Nat.le_of_eq h.value) (Nat.le_trans h.allowed (by decide))
    rw [boundedInterval?, if_pos ⟨h.ne_nil, List.all_eq_true.2 h.digits⟩,
      Numeral.natural_eq_readOn h.ne_nil h.digits, Numeral.readOn_of_isDigit h.digits hmax, h.value]
    exact if_pos ⟨h.positive, h.allowed⟩

/-! Next dates. -/

theorem Rule.outOfRange_of_nextAfter {rule : Rule} {start now : Date} {cause : Error}
    (h : rule.nextAfter start now = .error cause) : cause = .outOfRange start.compact := by
  rw [nextAfter] at h
  split at h
  · cases h
  · cases h
    rfl

section NextDate

variable {now day : Date} {start rule : String} {cause : Error}

theorem reads_of_nextDate_dated (hrule : rule ≠ "") (hstart : Date.ofCompact? start = some day)
    (h : nextDate now start rule = .error cause) :
    Reads rule (.error cause) ∨ cause = .outOfRange day.compact := by
  rw [nextDate_dated hrule hstart] at h
  cases hr : Rule.ofText rule with
  | error e =>
      rw [hr] at h
      cases h
      exact .inl ((ofText_eq_iff_reads hrule).1 hr)
  | ok r =>
      cases hn : r.nextAfter day now with
      | error e =>
          simp only [hr, Except.bind, hn, Except.map] at h
          cases h
          exact .inr (Rule.outOfRange_of_nextAfter hn)
      | ok next =>
          simp only [hr, Except.bind, hn, Except.map] at h
          cases h

/-- With a rule and a start, what is wrong lies in the rule or in the calendar. -/
theorem blamesRule_of_nextDate_dated (hrule : rule ≠ "")
    (hstart : Date.ofCompact? start = some day) (h : nextDate now start rule = .error cause) :
    cause.BlamesRule ∨ cause = .outOfRange day.compact :=
  (reads_of_nextDate_dated hrule hstart h).imp_left Says.blamesRule

theorem nextDate_eq_emptyRule_iff :
    nextDate now start rule = .error .emptyRule ↔ rule = "" := by
  constructor
  · intro h
    apply Decidable.byContradiction
    intro hrule
    cases hstart : Date.ofCompact? start with
    | none =>
        rw [nextDate_undated hrule hstart] at h
        cases h
    | some day =>
        obtain hblames | heq := blamesRule_of_nextDate_dated hrule hstart h
        · exact hblames
        · cases heq
  · intro hrule
    rw [nextDate, if_pos hrule]

theorem nextDate_eq_invalidStart_iff (hrule : rule ≠ "") :
    nextDate now start rule = .error (.invalidStart start) ↔ Date.ofCompact? start = none := by
  constructor
  · intro h
    cases hstart : Date.ofCompact? start with
    | none => rfl
    | some day =>
        obtain hblames | heq := blamesRule_of_nextDate_dated hrule hstart h
        · exact hblames.elim
        · cases heq
  · exact nextDate_undated hrule

theorem nextDate_eq_malformed_iff (hrule : rule ≠ "") (hstart : Date.ofCompact? start = some day) :
    nextDate now start rule = .error (.malformed rule) ↔
      ∀ c ∈ rule.toList, Blank.isBlank c = true := by
  rw [← reads_malformed_iff]
  constructor
  · intro h
    obtain hreads | heq := reads_of_nextDate_dated hrule hstart h
    · exact hreads
    · cases heq
  · intro hreads
    rw [nextDate_dated hrule hstart, (ofText_eq_iff_reads hrule).2 hreads]
    rfl

theorem ofText_eq_emptyRule_iff : Rule.ofText rule = .error .emptyRule ↔ rule = "" := by
  constructor
  · intro h
    apply Decidable.byContradiction
    intro hrule
    exact blamesRule_of_ofText hrule h
  · intro hrule
    rw [Rule.ofText, if_pos hrule]

end NextDate

/-- The next date of a written start and rule tells of an empty rule first, then of a start that is
no compact date, then of what the words of the rule say, and otherwise counts by the rule that they
say. Reading a rule alone agrees with that; the shortest form of a rule is read as the same rule,
and intervals need no more than 32 bits. -/
theorem nextDate_follows_grammar (now : Date) (start rule : String) :
    (nextDate now start rule = .error .emptyRule ↔ rule = "") ∧
      (Rule.ofText rule = .error .emptyRule ↔ rule = "") ∧
      (rule ≠ "" →
        (nextDate now start rule = .error (.invalidStart start) ↔
          Date.ofCompact? start = none) ∧
        (∀ day, Date.ofCompact? start = some day →
          (nextDate now start rule = .error (.malformed rule) ↔
            ∀ c ∈ rule.toList, Blank.isBlank c = true) ∧
          ∀ outcome, Reads rule outcome → nextDate now start rule =
            outcome.bind fun r => (r.nextAfter day now).map Date.compact) ∧
        ∀ outcome, Rule.ofText rule = outcome ↔ Reads rule outcome) ∧
      (∀ r, Rule.ofText rule = .ok r → Rule.ofText r.text = .ok r) ∧
      ∀ word n, boundedInterval? word = some n ↔ IsInterval word n := by
  refine ⟨nextDate_eq_emptyRule_iff, ofText_eq_emptyRule_iff, fun hrule => ?_,
    fun r hr => ofText_text (Rule.allowed_of_ofText hr), fun _ _ => boundedInterval?_eq_some_iff⟩
  refine ⟨nextDate_eq_invalidStart_iff hrule, fun day hstart => ?_,
    fun _ => ofText_eq_iff_reads hrule⟩
  refine ⟨nextDate_eq_malformed_iff hrule hstart, fun outcome hreads => ?_⟩
  rw [nextDate_dated hrule hstart, (ofText_eq_iff_reads hrule).2 hreads]

end Agenda.Repeat
