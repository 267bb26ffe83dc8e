import Agenda.Proofs.Store.Rows
import Mathlib.Data.List.Forall2
import Mathlib.Data.List.ReduceOption

/-!
What is read from the file of tasks, line by line and byte by byte. The file says the tasks of its
lines in their order, unless a line is broken; then the first broken line decides the error. Blank
lines and blanks around a task only count for the numbers of the lines.
-/

namespace Agenda.Store

namespace Rows

variable {content line : List UInt8} {lines : List (List UInt8)} {told : Option Task}
  {tasks : List Task} {e : Error} {n : Nat}

/-! Lines. -/

def withoutReturn (piece : List UInt8) : List UInt8 :=
  if piece.getLast? = some 0x0D then piece.dropLast else piece

/-- Behind the last line feed there is a line only if something stands there. -/
def linesOfPieces : List (List UInt8) → List (List UInt8)
  | [] => []
  | [last] => if last.isEmpty then [] else [last]
  | piece :: pieces => withoutReturn piece :: linesOfPieces pieces

/-- The lines of a file: a line feed ends a line, and a carriage return in front of it is no part of
the line. -/
def linesOf (content : List UInt8) : List (List UInt8) :=
  linesOfPieces (Lines.splitAt 0x0A content)

/-- The line is text, and it is blank or holds a task between blanks. -/
inductive Says (line : List UInt8) : Option Task → Prop where
  | blank {cs : List Char} (text : Utf8.encode cs = line)
      (blank : ∀ c ∈ cs, Blank.isBlank c = true) : Says line none
  | task {cs : List Char} {t : Task} (text : Utf8.encode cs = line)
      (json : Task.ofJson? (Blank.trim cs) = some t) : Says line (some t)

/-- The line with this number is no text, or it is neither blank nor a task. -/
inductive Offends (line : List UInt8) (number : Nat) : Error → Prop where
  | notText (broken : ∀ cs, Utf8.encode cs ≠ line) : Offends line number (.file .tasks .notText)
  | notTask {cs : List Char} {c : Char} (text : Utf8.encode cs = line) (given : c ∈ cs)
      (visible : Blank.isBlank c = false) (json : Task.ofJson? (Blank.trim cs) = none) :
      Offends line number (.corrupt number)

theorem says_or_offends (line : List UInt8) (n : Nat) :
    (∃ told, Says line told) ∨ ∃ e, Offends line n e := by
  by_cases htext : ∃ cs, Utf8.encode cs = line
  · obtain ⟨cs, hcs⟩ := htext
    cases hjson : Task.ofJson? (Blank.trim cs) with
    | some t => exact .inl ⟨_, .task hcs hjson⟩
    | none =>
        by_cases hblank : ∀ c ∈ cs, Blank.isBlank c = true
        · exact .inl ⟨_, .blank hcs hblank⟩
        · simp only [not_forall, Bool.not_eq_true] at hblank
          obtain ⟨c, hc, hvisible⟩ := hblank
          exact .inr ⟨_, .notTask hcs hc hvisible hjson⟩
  · exact .inr ⟨_, .notText fun cs hcs => htext ⟨cs, hcs⟩⟩

theorem ofJson?_nil : Task.ofJson? [] = none := by
  simp [Task.ofJson?, Task.ofGlyphs?, Json.Token.scan, Task.draft?]

theorem Says.decodeLine_eq (h : Says line told) (n : Nat) :
    decodeLine n (Utf8.decode line) = .ok told := by
  cases h with
  | @blank cs text blank =>
      rw [← text, decodeLine, Utf8.decode_encode, Utf8.characters?_map_some]
      simp only [Blank.trim_eq_nil_iff.2 blank]
      rfl
  | @task cs t text json =>
      have hgiven : (Blank.trim cs).isEmpty = false := by
        rw [List.isEmpty_eq_false_iff]
        intro hnil
        rw [hnil, ofJson?_nil] at json
        cases json
      rw [← text, decodeLine, Utf8.decode_encode, Utf8.characters?_map_some]
      simp only [hgiven, Bool.false_eq_true, if_false, json]

theorem Offends.decodeLine_eq (h : Offends line n e) :
    decodeLine n (Utf8.decode line) = .error e := by
  cases h with
  | notText broken =>
      have hnone : Utf8.characters? (Utf8.decode line) = none := by
        rw [Option.eq_none_iff_forall_ne_some]
        exact fun cs hcs => broken cs (Utf8.decode?_eq_some_iff.1 hcs)
      simp only [decodeLine, hnone]
  | @notTask cs c text given visible json =>
      have hgiven : (Blank.trim cs).isEmpty = false := by
        rw [List.isEmpty_eq_false_iff]
        exact List.ne_nil_of_mem (Blank.mem_trim given visible)
      rw [← text, decodeLine, Utf8.decode_encode, Utf8.characters?_map_some]
      simp only [hgiven, Bool.false_eq_true, if_false, json]

/-! All lines. -/

theorem Says.decodeLines_cons (h : Says line told) (n : Nat) (rest : List (List Glyph)) :
    decodeLines n (Utf8.decode line :: rest) =
      (decodeLines (n + 1) rest).map (told.toList ++ ·) := by
  rw [decodeLines]
  simp only [h.decodeLine_eq n]

theorem Offends.decodeLines_cons (h : Offends line n e) (rest : List (List Glyph)) :
    decodeLines n (Utf8.decode line :: rest) = .error e := by
  rw [decodeLines]
  simp only [h.decodeLine_eq]

theorem decodeLines_eq_ok_iff : decodeLines n (lines.map Utf8.decode) = .ok tasks ↔
    ∃ said, List.Forall₂ Says lines said ∧ tasks = said.reduceOption := by
  induction lines generalizing n tasks with
  | nil =>
      constructor
      · rintro ⟨⟩
        exact ⟨[], .nil, rfl⟩
      · rintro ⟨said, hsaid, rfl⟩
        cases hsaid
        rfl
  | cons line lines ih =>
      rw [List.map_cons]
      constructor
      · intro h
        obtain ⟨told, htold⟩ | ⟨e, hoffends⟩ := says_or_offends line n
        · rw [htold.decodeLines_cons] at h
          cases hrest : decodeLines (n + 1) (lines.map Utf8.decode) with
          | error e => rw [hrest] at h; cases h
          | ok rest =>
              rw [hrest] at h
              cases h
              obtain ⟨said, hsaid, rfl⟩ := ih.1 hrest
              exact ⟨told :: said, .cons htold hsaid, by cases told <;> rfl⟩
        · rw [hoffends.decodeLines_cons] at h
          cases h
      · rintro ⟨_, hsaid, rfl⟩
        cases hsaid with
        | @cons _ told _ said htold hsaid =>
            rw [htold.decodeLines_cons, ih.2 ⟨said, hsaid, rfl⟩]
            cases told <;> rfl

/-- The first line that is wrong decides the error. -/
theorem decodeLines_eq_error_iff : decodeLines n (lines.map Utf8.decode) = .error e ↔
    ∃ before line after, lines = before ++ line :: after ∧ (∀ l ∈ before, ∃ told, Says l told) ∧
      Offends line (before.length + n) e := by
  induction lines generalizing n with
  | nil => exact iff_of_false nofun (by simp)
  | cons line lines ih =>
      rw [List.map_cons]
      constructor
      · intro h
        obtain ⟨told, htold⟩ | ⟨e', hoffends⟩ := says_or_offends line n
        · rw [htold.decodeLines_cons] at h
          cases hrest : decodeLines (n + 1) (lines.map Utf8.decode) with
          | ok rest => rw [hrest] at h; cases h
          | error e' =>
              rw [hrest] at h
              cases h
              obtain ⟨before, wrong, after, rfl, hbefore, hwrong⟩ := ih.1 hrest
              refine ⟨line :: before, wrong, after, rfl,
                List.forall_mem_cons.2 ⟨⟨told, htold⟩, hbefore⟩, ?_⟩
              rwa [List.length_cons, Nat.add_assoc, Nat.add_comm 1 n]
        · rw [hoffends.decodeLines_cons] at h
          cases h
          refine ⟨[], line, lines, rfl, List.forall_mem_nil _, ?_⟩
          rwa [List.length_nil, Nat.zero_add]
      · rintro ⟨before, wrong, after, heq, hbefore, hwrong⟩
        cases before with
        | nil =>
            cases heq
            rw [List.length_nil, Nat.zero_add] at hwrong
            exact hwrong.decodeLines_cons _
        | cons first before =>
            cases heq
            obtain ⟨⟨told, htold⟩, hbefore⟩ := List.forall_mem_cons.1 hbefore
            rw [List.length_cons, Nat.add_assoc, Nat.add_comm 1 n] at hwrong
            rw [htold.decodeLines_cons, ih.2 ⟨before, wrong, after, rfl, hbefore, hwrong⟩]
            rfl

/-! Bytes and characters. -/

theorem decode_append_newline (bs bs' : List UInt8) :
    Utf8.decode (bs ++ 0x0A :: bs') = Utf8.decode bs ++ some '\n' :: Utf8.decode bs' := by
  have hfirst : ∀ b ∈ ((0x0A : UInt8) :: bs').head?, b.IsUTF8FirstByte := by
    rintro b ⟨⟩
    decide
  rw [Utf8.decode_append bs hfirst]
  exact congrArg _ (Utf8.decode_utf8EncodeChar_append '\n' bs')

theorem newline_not_mem_decode {bs : List UInt8} (h : 0x0A ∉ bs) :
    some '\n' ∉ Utf8.decode bs :=
  fun hmem => h (Utf8.utf8EncodeChar_subset_of_mem_decode hmem List.mem_cons_self)

theorem decode_intercalate {pieces : List (List UInt8)} (hne : pieces ≠ []) :
    Utf8.decode ([0x0A].intercalate pieces) =
      [some '\n'].intercalate (pieces.map Utf8.decode) := by
  induction pieces with
  | nil => contradiction
  | cons piece pieces ih =>
      cases pieces with
      | nil => rw [List.map_singleton, List.intercalate_singleton, List.intercalate_singleton]
      | cons next pieces =>
          have hrest := ih (List.cons_ne_nil _ _)
          rw [List.map_cons] at hrest
          rw [List.map_cons, List.map_cons, List.intercalate_cons_cons,
            List.intercalate_cons_cons, List.append_assoc, List.append_assoc,
            List.singleton_append, List.singleton_append, decode_append_newline, hrest]

/-- It is the same whether bytes are split or what is read from them. -/
theorem splitAt_decode (content : List UInt8) :
    Lines.splitAt (some '\n') (Utf8.decode content) =
      (Lines.splitAt 0x0A content).map Utf8.decode := by
  obtain ⟨piece, pieces, hpieces⟩ := Lines.exists_splitAt_eq 0x0A content
  have hne : Lines.splitAt 0x0A content ≠ [] := by
    rw [hpieces]
    exact List.cons_ne_nil _ _
  have hwhole : ∀ piece ∈ (Lines.splitAt 0x0A content).map Utf8.decode, some '\n' ∉ piece := by
    refine List.forall_mem_map.2 fun piece hpiece => newline_not_mem_decode ?_
    exact Lines.not_mem_of_mem_splitAt hpiece
  have hcontent := decode_intercalate hne
  rw [Lines.intercalate_splitAt] at hcontent
  rw [hcontent, Lines.splitAt_intercalate (by simpa using hne) hwhole]

theorem decodeLine_cons {c : Char} (hc : Blank.isBlank c = true) (n : Nat) (gs : List Glyph) :
    decodeLine n (some c :: gs) = decodeLine n gs := by
  rw [decodeLine, decodeLine, Utf8.characters?]
  cases Utf8.characters? gs with
  | none => rfl
  | some cs => simp only [Option.map_some, Blank.trim_cons hc]

theorem decodeLine_concat {c : Char} (hc : Blank.isBlank c = true) (n : Nat) (gs : List Glyph) :
    decodeLine n (gs ++ [some c]) = decodeLine n gs := by
  have hlast : Utf8.characters? [some c] = some [c] := rfl
  rw [decodeLine, decodeLine, Utf8.characters?_append, hlast]
  cases Utf8.characters? gs with
  | none => rfl
  | some cs => simp only [Option.bind_some, Option.map_some, Blank.trim_concat hc]

theorem decodeLine_withoutReturn (n : Nat) (piece : List UInt8) :
    decodeLine n (Utf8.decode (withoutReturn piece)) = decodeLine n (Utf8.decode piece) := by
  rw [withoutReturn]
  split
  · rename_i hlast
    obtain ⟨front, rfl⟩ := List.getLast?_eq_some_iff.1 hlast
    have hfirst : ∀ b ∈ [(0x0D : UInt8)].head?, b.IsUTF8FirstByte := by
      rintro b ⟨⟩
      decide
    have hreturn : Utf8.decode [0x0D] = [some '\r'] := Utf8.decode_encode ['\r']
    rw [List.dropLast_concat, Utf8.decode_append front hfirst, hreturn, decodeLine_concat rfl]
  · rfl

theorem decodeLines_linesOfPieces (n : Nat) (pieces : List (List UInt8)) :
    decodeLines n ((linesOfPieces pieces).map Utf8.decode) =
      decodeLines n (pieces.map Utf8.decode) := by
  fun_induction linesOfPieces pieces generalizing n with
  | case1 => rfl
  | case2 last hlast =>
      have hempty : Utf8.decode [] = [] := Utf8.decode_encode []
      rw [List.isEmpty_iff.1 hlast, List.map_singleton, hempty]
      rfl
  | case3 last hlast => rfl
  | case4 piece pieces hpieces ih =>
      rw [List.map_cons, List.map_cons, decodeLines, decodeLines, decodeLine_withoutReturn, ih]

/-- A file is read line by line. -/
theorem decode_eq_decodeLines (content : List UInt8) :
    decode content = decodeLines 1 ((linesOf content).map Utf8.decode) := by
  rw [decode, splitAt_decode, linesOf, decodeLines_linesOfPieces]

/-! Blanks between lines and at their ends. -/

/-- The tasks that lines say, wherever they stand in the file. -/
def told? (pieces : List (List Glyph)) : Option (List Task) := (decodeLines 1 pieces).toOption

theorem toOption_decodeLine (m n : Nat) (piece : List Glyph) :
    (decodeLine m piece).toOption = (decodeLine n piece).toOption := by
  rw [decodeLine, decodeLine]
  split
  · rfl
  · split
    · rfl
    · split <;> rfl

theorem toOption_decodeLines_cons (n : Nat) (piece : List Glyph) (pieces : List (List Glyph)) :
    (decodeLines n (piece :: pieces)).toOption = (decodeLine n piece).toOption.bind fun t =>
      (decodeLines (n + 1) pieces).toOption.map (t.toList ++ ·) := by
  rw [decodeLines]
  cases decodeLine n piece with
  | error e => rfl
  | ok t => cases decodeLines (n + 1) pieces <;> rfl

theorem toOption_decodeLines (m n : Nat) (pieces : List (List Glyph)) :
    (decodeLines m pieces).toOption = (decodeLines n pieces).toOption := by
  induction pieces generalizing m n with
  | nil => rfl
  | cons piece pieces ih =>
      rw [toOption_decodeLines_cons, toOption_decodeLines_cons, toOption_decodeLine m n,
        ih (m + 1) (n + 1)]

theorem told?_cons (piece : List Glyph) (pieces : List (List Glyph)) :
    told? (piece :: pieces) =
      (decodeLine 1 piece).toOption.bind fun t => (told? pieces).map (t.toList ++ ·) := by
  rw [told?, toOption_decodeLines_cons, toOption_decodeLines (1 + 1) 1]
  rfl

theorem told?_append (pieces pieces' : List (List Glyph)) :
    told? (pieces ++ pieces') =
      (told? pieces).bind fun tasks => (told? pieces').map (tasks ++ ·) := by
  induction pieces with
  | nil =>
      have hnone : told? [] = some [] := rfl
      rw [List.nil_append, hnone, Option.bind_some]
      exact Option.map_id'.symm
  | cons piece pieces ih =>
      rw [List.cons_append, told?_cons, told?_cons, ih]
      cases (decodeLine 1 piece).toOption <;> cases told? pieces <;> cases told? pieces' <;> simp

theorem told?_nil_cons (pieces : List (List Glyph)) : told? ([] :: pieces) = told? pieces := by
  have hnone : (decodeLine 1 []).toOption = some none := rfl
  rw [told?_cons, hnone, Option.bind_some]
  exact Option.map_id'

/-- A line starts or ends between these bytes. -/
def AtEdge (front back : List UInt8) : Prop :=
  (front = [] ∨ front.getLast? = some 0x0A) ∨ back = [] ∨ back.head? = some 0x0A

theorem told?_blanks_append {blanks : List Char} (h : ∀ c ∈ blanks, Blank.isBlank c = true)
    (gs : List Glyph) :
    told? (Lines.splitAt (some '\n') (blanks.map some ++ gs)) =
      told? (Lines.splitAt (some '\n') gs) := by
  induction blanks with
  | nil => rfl
  | cons c blanks ih =>
      obtain ⟨hc, hblanks⟩ := List.forall_mem_cons.1 h
      rw [List.map_cons, List.cons_append, ← ih hblanks]
      by_cases hnewline : c = '\n'
      · rw [hnewline, Lines.splitAt_cons_self, told?_nil_cons]
      · obtain ⟨piece, pieces, hpieces⟩ :=
          Lines.exists_splitAt_eq (some '\n') (blanks.map some ++ gs)
        have hne : some c ≠ some '\n' := fun heq => hnewline (Option.some.inj heq)
        rw [Lines.splitAt_cons_of_ne hne hpieces, hpieces, told?_cons, told?_cons, decodeLine_cons hc]

theorem told?_append_blanks {blanks : List Char} (h : ∀ c ∈ blanks, Blank.isBlank c = true)
    (gs : List Glyph) :
    told? (Lines.splitAt (some '\n') (gs ++ blanks.map some)) =
      told? (Lines.splitAt (some '\n') gs) := by
  induction blanks generalizing gs with
  | nil => rw [List.map_nil, List.append_nil]
  | cons c blanks ih =>
      obtain ⟨hc, hblanks⟩ := List.forall_mem_cons.1 h
      rw [List.map_cons, ← List.singleton_append, ← List.append_assoc, ih hblanks]
      by_cases hnewline : c = '\n'
      · have hempty : told? (Lines.splitAt (some '\n') []) = some [] := told?_nil_cons []
        rw [hnewline, Lines.splitAt_append_cons, told?_append, hempty]
        simp
      · have hne : some c ≠ some '\n' := fun heq => hnewline (Option.some.inj heq)
        obtain ⟨front, last, hgs, hgsc⟩ := Lines.exists_splitAt_concat hne gs
        rw [hgs, hgsc, told?_append, told?_append, told?_cons, told?_cons, decodeLine_concat hc]

/-- Blanks where a line starts or ends do not count, and neither do lines of blanks. -/
theorem told?_insert {front back : List UInt8} {blanks : List Char}
    (h : ∀ c ∈ blanks, Blank.isBlank c = true) (hedge : AtEdge front back) :
    told? (Lines.splitAt (some '\n') (Utf8.decode (front ++ Utf8.encode blanks ++ back))) =
      told? (Lines.splitAt (some '\n') (Utf8.decode (front ++ back))) := by
  have hfirst : ∀ b ∈ (Utf8.encode blanks).head?, b.IsUTF8FirstByte := fun _ =>
    Utf8.isUTF8FirstByte_of_head?_encode
  obtain (rfl | hfront) | rfl | hback := hedge
  · rw [List.nil_append, List.nil_append, Utf8.decode_encode_append, told?_blanks_append h]
  · obtain ⟨front, rfl⟩ := List.getLast?_eq_some_iff.1 hfront
    simp only [List.append_assoc, List.cons_append, List.nil_append, decode_append_newline,
      Utf8.decode_encode_append, Lines.splitAt_append_cons, told?_append, told?_blanks_append h]
  · rw [List.append_nil, List.append_nil, Utf8.decode_append front hfirst, Utf8.decode_encode,
      told?_append_blanks h]
  · obtain ⟨back, rfl⟩ := List.head?_eq_some_iff.1 hback
    simp only [decode_append_newline, Utf8.decode_append front hfirst, Utf8.decode_encode,
      Lines.splitAt_append_cons, told?_append, told?_append_blanks h]

theorem decode_eq_ok_iff_told? : decode content = .ok tasks ↔
    told? (Lines.splitAt (some '\n') (Utf8.decode content)) = some tasks := by
  rw [told?, ← decode]
  cases decode content with
  | error e => simp [Except.toOption]
  | ok rest => simp [Except.toOption]

end Rows

open Rows in
/-- The file of tasks says the tasks of its lines in their order if no line is wrong, and then
neither blanks where a line starts or ends nor blank lines change what it says. Otherwise the first
wrong line decides the error, and it has its number among all lines. -/
theorem tasks_by_lines (d : Directory) (content : List UInt8) :
    (∀ tasks, loadTasks { d with tasks := .file content } = .ok tasks ↔
        ∃ said, List.Forall₂ Says (linesOf content) said ∧ tasks = said.reduceOption) ∧
      (∀ e, loadTasks { d with tasks := .file content } = .error e ↔
        ∃ before line after, linesOf content = before ++ line :: after ∧
          (∀ l ∈ before, ∃ told, Says l told) ∧ Offends line (before.length + 1) e) ∧
      ∀ front blanks back tasks, content = front ++ back →
        (∀ c ∈ blanks, Blank.isBlank c = true) → AtEdge front back →
        (loadTasks { d with tasks := .file (front ++ Utf8.encode blanks ++ back) } = .ok tasks ↔
          loadTasks { d with tasks := .file content } = .ok tasks) := by
  have hload (content : List UInt8) :
      loadTasks { d with tasks := .file content } = decode content := rfl
  refine ⟨fun tasks => ?_, fun e => ?_, ?_⟩
  · rw [hload, decode_eq_decodeLines, decodeLines_eq_ok_iff]
  · rw [hload, decode_eq_decodeLines, decodeLines_eq_error_iff]
  · rintro front blanks back tasks rfl hblanks hedge
    rw [hload, hload, decode_eq_ok_iff_told?, decode_eq_ok_iff_told?, told?_insert hblanks hedge]

def apples : Task := { id := "1", date := "20240101", title := "apples" }

open Rows in
/-- A row is kept whole with blanks in front of its line feed. Of two wrong lines the first one
counts, with the blank lines before it. -/
theorem tasks_by_lines_of_returned :
    (Rows.encode [apples] = Utf8.encode apples.json ++ [0x0A] ∧
      (∀ c ∈ ['\u3000', '\r'], Blank.isBlank c = true) ∧
      AtEdge (Utf8.encode apples.json) [0x0A] ∧
      loadTasks { tasks := .file (Utf8.encode apples.json ++ Utf8.encode ['\u3000', '\r'] ++
        [0x0A]) } = .ok [apples]) ∧
    loadTasks { tasks := .file [0x0A, 0x20, 0x0D, 0x0A, 0x78, 0x0A, 0xFF] } =
      .error (.corrupt 3) := by
  have hrow : Rows.encode [apples] = Utf8.encode apples.json ++ [0x0A] := by
    rw [Rows.encode, List.flatMap_singleton, Utf8.encode_append]
    rfl
  have hblanks : ∀ c ∈ ['\u3000', '\r'], Blank.isBlank c = true :=
    List.forall_mem_cons.2 ⟨rfl, List.forall_mem_singleton.2 rfl⟩
  have hedge : AtEdge (Utf8.encode apples.json) [0x0A] := .inr (.inr rfl)
  have hspaced := ((tasks_by_lines {} _).2.2 _ _ _ [apples] hrow hblanks hedge).2
    (Rows.decode_encode [apples])
  have hjson : Task.ofJson? ['x'] = none := by
    have hscan : Json.Token.scan [some 'x'] = none := by
      have hread : Json.Token.read? 'x' [] = none := rfl
      have hvisible : Json.Token.isBlank 'x' = false := rfl
      rw [Json.Token.scan, hvisible, if_neg Bool.false_ne_true]
      split
      · rfl
      · rename_i htoken
        rw [hread] at htoken
        cases htoken
    rw [Task.ofJson?, Task.ofGlyphs?, List.map_singleton, hscan]
    rfl
  have hempty : Says [] none := by
    have htext : Utf8.encode [] = [] := rfl
    exact .blank htext (List.forall_mem_nil _)
  have hblank : Says [0x20] none := by
    have htext : Utf8.encode [' '] = [0x20] := rfl
    exact .blank htext (List.forall_mem_singleton.2 rfl)
  have hwrong : Offends [0x78] 3 (.corrupt 3) := by
    have htext : Utf8.encode ['x'] = [0x78] := rfl
    exact .notTask htext List.mem_cons_self rfl hjson
  refine ⟨⟨hrow, hblanks, hedge, hspaced⟩, ((tasks_by_lines {} _).2.1 _).2 ?_⟩
  refine ⟨[[], [0x20]], [0x78], [[0xFF]], rfl, ?_, hwrong⟩
  exact List.forall_mem_cons.2 ⟨⟨none, hempty⟩, List.forall_mem_singleton.2 ⟨none, hblank⟩⟩

end Agenda.Store
