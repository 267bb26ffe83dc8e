import Agenda.Proofs.Task.Written
import Agenda.Proofs.Text.Lines
import Agenda.Proofs.Text.Numeral
import Agenda.Proofs.Text.Utf8
import Agenda.Proofs.Text.Words
import Agenda.Store.Change

/-!
Both files of a store are read back as they were written. For the tasks, no character of a written
task ends a line and no blank stands at its ends, so each line is the written form of one task and
trimming takes nothing away.
-/

namespace Agenda.Store

theorem Rows.trim_json (t : Task) : Blank.trim t.json = t.json := by
  obtain ⟨cs, hcs⟩ := Task.exists_json_eq t
  rw [hcs]
  apply Blank.trim_eq_self
  · intro c hc
    cases hc
    decide
  · intro c hc
    rw [List.getLast?_append] at hc
    cases hc
    decide

theorem Rows.newline_not_mem_json (t : Task) : some '\n' ∉ t.json.map some := by
  intro h
  obtain ⟨c, hc, he⟩ := List.mem_map.1 h
  cases he
  exact absurd (Task.toNat_of_mem_json hc) (by decide)

theorem Rows.decodeLine_json (number : Nat) (t : Task) :
    decodeLine number (t.json.map some) = .ok (some t) := by
  have hne : t.json.isEmpty = false := by
    obtain ⟨cs, hcs⟩ := Task.exists_json_eq t
    rw [hcs]
    rfl
  simp only [decodeLine, Utf8.characters?_map_some, Rows.trim_json, hne, Bool.false_eq_true,
    if_false, Task.ofJson?_json]

theorem Rows.decodeLines_json (number : Nat) (tasks : List Task) :
    decodeLines number (tasks.map (fun t => t.json.map some) ++ [[]]) = .ok tasks := by
  induction tasks generalizing number with
  | nil => rfl
  | cons t tasks ih =>
      rw [List.map_cons, List.cons_append, decodeLines, decodeLine_json]
      simp only [ih, Except.map]
      rfl

theorem Rows.decode_encode (tasks : List Task) : decode (encode tasks) = .ok tasks := by
  have hpieces : (tasks.flatMap fun t => t.json ++ ['\n']).map some =
      (tasks.map fun t => t.json.map some).flatMap fun line => line ++ [some '\n'] := by
    rw [List.map_flatMap, List.flatMap_map]
    simp only [List.map_append, List.map_cons, List.map_nil]
  have hlines : ∀ line ∈ tasks.map fun t => t.json.map some, some '\n' ∉ line := by
    intro line hline
    obtain ⟨t, _, rfl⟩ := List.mem_map.1 hline
    exact newline_not_mem_json t
  rw [decode, encode, Utf8.decode_encode, hpieces, Lines.splitAt_flatMap hlines]
  exact decodeLines_json 1 tasks

theorem Sequence.trim_digits (n : Nat) : Blank.trim (Numeral.digits n) = Numeral.digits n := by
  apply Blank.trim_eq_self
  · intro c hc
    exact Blank.isBlank_of_isDigit (Numeral.isDigit_of_mem_digits (List.mem_of_mem_head? hc))
  · intro c hc
    exact Blank.isBlank_of_isDigit (Numeral.isDigit_of_mem_digits (List.mem_of_mem_getLast? hc))

theorem Sequence.decode_encode {n : Nat} (h : n ≤ Numeral.max64) : decode (encode n) = .ok n := by
  have hne : (Numeral.digits n).isEmpty = false := by
    rw [List.isEmpty_eq_false_iff]
    exact Numeral.digits_ne_nil n
  simp only [decode, encode, Utf8.decode?_encode, Sequence.trim_digits, hne, Bool.false_eq_true,
    if_false, Numeral.natural_digits h]

theorem Sequence.le_of_decode {content : List UInt8} {n : Nat} (h : decode content = .ok n) :
    n ≤ Numeral.max64 := by
  rw [decode] at h
  split at h
  · cases h
  · split at h
    · cases h
      exact Nat.zero_le _
    · split at h
      · rename_i hread
        cases h
        exact Numeral.natural_le hread
      · cases h

/-! Entries. -/

theorem read_of_load {α : Type} {entry : Entry} {decode : List UInt8 → Except Error α}
    {d : Directory} {a : α} (h : load entry decode d = .ok a) :
    ∃ content, d.get entry = .file content := by
  rw [load, Directory.read] at h
  cases he : d.get entry with
  | absent => rw [he] at h; cases h
  | folder => rw [he] at h; cases h
  | file content => exact ⟨content, rfl⟩

theorem replace_of_ne_folder {d : Directory} {entry : Entry} (h : d.get entry ≠ .folder)
    (content : List UInt8) : d.replace entry content = .ok (d.set entry (.file content)) := by
  rw [Directory.replace]
  cases he : d.get entry with
  | absent => rfl
  | folder => exact absurd he h
  | file _ => rfl

theorem load_set_file {α : Type} (entry : Entry) (decode : List UInt8 → Except Error α)
    (d : Directory) (content : List UInt8) :
    load entry decode (d.set entry (.file content)) = decode content := by
  rw [load, Directory.read, Directory.get_set, if_pos rfl]

theorem load_set_of_ne {α : Type} {entry entry' : Entry} (decode : List UInt8 → Except Error α)
    (d : Directory) (slot : Slot) (h : entry ≠ entry') :
    load entry decode (d.set entry' slot) = load entry decode d := by
  rw [load, load, Directory.read, Directory.read, Directory.get_set, if_neg h]

theorem loadTasks_set_encode (d : Directory) (tasks : List Task) :
    loadTasks (d.set .tasks (.file (Rows.encode tasks))) = .ok tasks := by
  rw [loadTasks, load_set_file, Rows.decode_encode]

theorem loadSequence_le {d : Directory} {n : Nat} (h : loadSequence d = .ok n) :
    n ≤ Numeral.max64 := by
  rw [loadSequence, load] at h
  split at h
  · cases h
  · exact Sequence.le_of_decode h

/-- Tasks that were saved are loaded again, whatever characters their texts hold. -/
theorem loadTasks_of_save (tasks : List Task) {d : Directory} (h : d.tasks ≠ .folder) :
    ∃ d', commit [(.tasks, Rows.encode tasks)] d = (.ok (), d') ∧ loadTasks d' = .ok tasks ∧
      d'.sequence = d.sequence ∧ d'.lock = d.lock := by
  have hreplace : d.replace .tasks (Rows.encode tasks) =
      .ok (d.set .tasks (.file (Rows.encode tasks))) :=
    replace_of_ne_folder (show d.get .tasks ≠ .folder from h) _
  refine ⟨d.set .tasks (.file (Rows.encode tasks)), ?_, ?_, rfl, rfl⟩
  · simp only [commit, hreplace]
  · rw [loadTasks, load_set_file, Rows.decode_encode]

theorem loadTasks_of_save_breaks :
    ({} : Directory).tasks ≠ .folder ∧ ∃ d', commit [(.tasks, Rows.encode
        [{ id := "\"\\", date := "\n\r\n", title := " \u0085\u2028 ", comment := "\x00😀" }, {}])] {} =
        (.ok (), d') ∧
      loadTasks d' = .ok
        [{ id := "\"\\", date := "\n\r\n", title := " \u0085\u2028 ", comment := "\x00😀" }, {}] ∧
      d'.sequence = .absent ∧ d'.lock = .absent :=
  ⟨by decide, loadTasks_of_save _ (by decide)⟩

end Agenda.Store
