import ChatServer.Spec.MessageStore
import Mathlib.Algebra.BigOperators.Group.List

/-!
# Where the log lines go

`OpenLogFile` is the only place that reads the date: it names the file after the local date of
its own reading, and runs in the constructor and in `RotateLogFile`, which `WriteToFile` calls
once the counter reaches `max_file_size_mb * 1024 * 1024`. So each line goes to the file opened
last, whatever the date at which it is written, and a rotation within one date opens the same
file again and reloads its size into the counter.

* `store_open`: one `Store` with the log open on `path` appends its line to `path`, and `path`
  stays open until the counter reaches the limit; then the file of the call's date is opened.
* `lines_follow_last_open`: **along every sequence of `Store` calls that keeps the counter below
  the limit, every line goes to the file opened last**, in order, whatever the dates of the
  calls; the call that reaches the limit writes there too, then opens the file of its own date.
* `line_after_midnight_in_old_file`: so a line written after midnight goes to the file of the
  previous date.
* `log_file_exceeds_bound`: at the default limit of 10 MB, a file one byte short of the limit
  holds, two writes later, more than the limit plus the line written.
-/

namespace ChatServer.MessageStore

variable {localTime : Int → Tm}

/-- The line `WriteToFile` writes for a message. -/
def line (localTime : Int → Tm) (m : ChatMessage) : String := m.toString localTime ++ "\n"

/-- **One `Store` with the log open on `path`**: the line goes to `path` through the
text-mode stream, and the counter grows by the line's bytes; below the limit `path` stays
open, and at the limit the rotation opens the file named for the date of the call's reading,
or switches persistence off. -/
theorem store_open {s : MessageStore} {path : String} (hopen : s.logFile = some path)
    (hpers : s.config.enablePersistence = true) (m : ChatMessage) (now : Int) :
    (s.store localTime m now).fs.appended = s.fs.appended ++ [(path, textMode (line localTime m))] ∧
      (s.currentFileSize + (line localTime m).length < s.config.maxFileSizeMb * 1024 * 1024 →
        (s.store localTime m now).logFile = some path ∧
        (s.store localTime m now).currentFileSize = s.currentFileSize + (line localTime m).length ∧
        (s.store localTime m now).config = s.config) ∧
      (s.config.maxFileSizeMb * 1024 * 1024 ≤ s.currentFileSize + (line localTime m).length →
        (s.store localTime m now).logFile =
          if s.fs.canOpen (logFileName s.config (localTime now)) then
            some (logFileName s.config (localTime now))
          else none) := by
  simp only [store, hpers, if_true, writeToFile, hopen, line]
  split
  · -- the counter reached the limit: `RotateLogFile`
    refine ⟨by simp only [rotateLogFile, openLogFile]; split <;> rfl, fun h => by omega,
      fun _ => ?_⟩
    simp only [rotateLogFile, openLogFile, FileSystem.canOpen_append]
    split <;> rfl
  · exact ⟨rfl, fun _ => ⟨rfl, rfl, rfl⟩, fun h => by omega⟩

/-- **Each line goes to the file opened last.** From any state with the log open on `path` and
persistence on: along every sequence of `Store` calls whose lines keep the counter below
`max_file_size_mb * 1024 * 1024`, every line is appended, in text mode and in order, to `path`,
whatever the dates of the calls, and `path` stays open; the call whose line brings the counter
to the limit appends it to `path` too, and then opens the file named for the local date of its
own reading. -/
theorem lines_follow_last_open (s : MessageStore) (path : String) (hopen : s.logFile = some path)
    (hpers : s.config.enablePersistence = true) :
    (∀ writes : List (ChatMessage × Int),
      s.currentFileSize + (writes.map fun w => (line localTime w.1).length).sum <
        s.config.maxFileSizeMb * 1024 * 1024 →
      (s.storeAll localTime writes).logFile = some path ∧
        (s.storeAll localTime writes).fs.appended =
          s.fs.appended ++ writes.map fun w => (path, textMode (line localTime w.1))) ∧
    ∀ m now, s.config.maxFileSizeMb * 1024 * 1024 ≤ s.currentFileSize + (line localTime m).length →
      (s.store localTime m now).fs.appended =
          s.fs.appended ++ [(path, textMode (line localTime m))] ∧
        (s.store localTime m now).logFile =
          if s.fs.canOpen (logFileName s.config (localTime now)) then
            some (logFileName s.config (localTime now))
          else none := by
  refine ⟨fun writes hbelow => ?_, fun m now hlim =>
    ⟨(store_open hopen hpers m now).1, (store_open hopen hpers m now).2.2 hlim⟩⟩
  induction writes generalizing s with
  | nil => exact ⟨hopen, by simp [storeAll]⟩
  | cons w writes ih =>
    simp only [List.map_cons, List.sum_cons] at hbelow
    obtain ⟨happ, hkeep, -⟩ := @store_open localTime _ _ hopen hpers w.1 w.2
    obtain ⟨hopen', hsize', hcfg'⟩ := hkeep (by omega)
    obtain ⟨h₁, h₂⟩ := ih _ hopen' (hcfg' ▸ hpers) (by rw [hsize', hcfg']; omega)
    refine ⟨h₁, ?_⟩
    simp only [storeAll, List.foldl_cons] at h₂ ⊢
    rw [h₂, happ, List.map_cons, List.append_assoc, List.singleton_append]

/-! ## Across midnight -/

/-- A local clock on which readings before `86400` fall on 8 November 2026 and later ones on
9 November. -/
def midnight : Int → Tm := fun t =>
  if t < 86400 then ⟨126, 10, 8, 23, 59, 59⟩ else ⟨126, 10, 9, 0, 0, 1⟩

/-- A file system whose files can all be opened and are empty. -/
def emptyFiles : FileSystem := ⟨fun _ => 0, [], fun _ => true, fun _ => true⟩

/-- A chat line of `alice`, stamped just after midnight. -/
def afterMidnight : ChatMessage := ⟨1, "alice", "general", "hi", 86400⟩

/-- The store built one second before midnight writes a line just after midnight to the file of
the previous date, the file it opened. -/
theorem lines_follow_last_open_midnight :
    (new midnight {} emptyFiles 86399).logFile = some "./chat_logs\\chat_20261108.log" ∧
      (new midnight {} emptyFiles 86399).config.enablePersistence = true ∧
      (new midnight {} emptyFiles 86399).currentFileSize +
          (([(afterMidnight, 86400)] : List (ChatMessage × Int)).map fun w =>
            (line midnight w.1).length).sum <
        (new midnight {} emptyFiles 86399).config.maxFileSizeMb * 1024 * 1024 ∧
      ((new midnight {} emptyFiles 86399).storeAll midnight [(afterMidnight, 86400)]).fs.appended =
        [("./chat_logs\\chat_20261108.log", textMode (line midnight afterMidnight))] :=
  have hopen : (new midnight {} emptyFiles 86399).logFile = some "./chat_logs\\chat_20261108.log" := by
    decide
  have hbelow : (new midnight {} emptyFiles 86399).currentFileSize +
      (([(afterMidnight, 86400)] : List (ChatMessage × Int)).map fun w =>
        (line midnight w.1).length).sum <
      (new midnight {} emptyFiles 86399).config.maxFileSizeMb * 1024 * 1024 := by decide
  ⟨hopen, rfl, hbelow, ((lines_follow_last_open _ _ hopen rfl).1 _ hbelow).2⟩

theorem line_after_midnight_in_old_file :
    logFileName {} (midnight 86400) = "./chat_logs\\chat_20261109.log" ∧
      ((new midnight {} emptyFiles 86399).storeAll midnight [(afterMidnight, 86400)]).fs.appended =
        [("./chat_logs\\chat_20261108.log", textMode (line midnight afterMidnight))] ∧
      line midnight afterMidnight = "[2026-11-09 00:00:01] [#general] alice: hi\n" := by
  decide

/-! ## The size of the file within one date -/

/-- A local clock on which every reading falls on 8 November 2026. -/
def sameDay : Int → Tm := fun _ => ⟨126, 10, 8, 12, 0, 0⟩

/-- A file system whose files can all be opened and hold one byte less than 10 MB. -/
def nearlyFull : FileSystem := ⟨fun _ => 10 * 1048576 - 1, [], fun _ => true, fun _ => true⟩

/-- A chat line of `alice` in `#general`. -/
def hello : ChatMessage := ⟨1, "alice", "general", "hi", 0⟩

/-- At the default limit, a store opened on a file one byte short of the limit holds, two
writes later on the same date, a file longer than the limit plus the line written: the first
write reaches the limit and the rotation opens the same file again. -/
theorem log_file_exceeds_bound :
    (∀ p, nearlyFull.size p ≤ ({} : MSConfig).maxFileSizeMb * 1048576) ∧
      ((new sameDay {} nearlyFull 0).storeAll sameDay [(hello, 0), (hello, 0)]).logFile =
        some "./chat_logs\\chat_20261108.log" ∧
      ((new sameDay {} nearlyFull 0).storeAll sameDay [(hello, 0), (hello, 0)]).fs.size
          "./chat_logs\\chat_20261108.log" >
        ({} : MSConfig).maxFileSizeMb * 1048576 + (line sameDay hello).length :=
  ⟨fun p => by simp [nearlyFull, FileSystem.size], by decide, by decide⟩

end ChatServer.MessageStore
