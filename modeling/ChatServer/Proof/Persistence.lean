import ChatServer.Proof.History
import ChatServer.Proof.LogRotation
import Mathlib.Data.List.Forall2

/-!
# The log on disk

`BroadcastToRoom` is the only caller of `MessageStore::Store`, and it prints the chat line to
the server log after it stores the message, outside the store's lock. `Store` writes the
message's line when persistence is on; `WriteToFile` writes nothing while the log file is
closed; and `OpenLogFile`, at the start and at every rotation, switches persistence off for good
when it cannot open the file. No method switches it on again.

* `Persisting.store`: on a disk that opens every file, a `Store` with the log open appends
  exactly the message's line, as the text-mode stream writes it, and leaves the log open.
* `disk_holds_chat_lines`: **on a disk that opens every file, the texts the server appends to
  the disk are, in order, the lines of the messages `Store` was called with**, each with its
  newlines written as `"\r\n"`; their chat lines are, up to order, the chat lines of the log
  and those that workers stopped after `Store` still hold. Two workers can store in one order
  and print in the other (`disk_holds_chat_lines_swapped`).
* `persistence_lost_for_good`: **once persistence is off it stays off**: from any state, every
  run leaves the disk as it was, whatever it could open.
-/

namespace ChatServer

/-- The chat lines among the lines `PrintServerLog` prints. -/
def LogLine.isChat : LogLine → Bool
  | .chat .. => true
  | _ => false

namespace MessageStore

variable {localTime : Int → Tm}

/-- The log file is open, persistence is on, and the disk opens every file. -/
structure Persisting (s : MessageStore) : Prop where
  logFile : s.logFile.isSome
  persistence : s.config.enablePersistence = true
  canOpen : ∀ path, s.fs.canOpen path = true

theorem new_persisting (config : MSConfig) (fs : FileSystem) (now : Int)
    (hp : config.enablePersistence = true) (hopen : ∀ path, fs.canOpen path = true) :
    (new localTime config fs now).Persisting := by
  simp only [new, hp, if_true, openLogFile, hopen]
  exact ⟨rfl, hp, hopen⟩

/-- **`Store` with the log open appends the message's line**, on a disk that opens every file:
a rotation opens the file again. -/
theorem Persisting.store (localTime : Int → Tm) {s : MessageStore} (h : s.Persisting)
    (m : ChatMessage) (now : Int) :
    (s.store localTime m now).Persisting ∧
      ∃ path, (s.store localTime m now).fs.appended =
        s.fs.appended ++ [(path, textMode (line localTime m))] := by
  obtain ⟨path, hpath⟩ := Option.isSome_iff_exists.1 h.logFile
  simp only [MessageStore.store, h.persistence, if_true, writeToFile, hpath]
  split
  · simp only [rotateLogFile, openLogFile, FileSystem.canOpen_append, h.canOpen, if_true]
    exact ⟨⟨rfl, h.persistence, h.canOpen⟩, path, rfl⟩
  · exact ⟨⟨rfl, h.persistence, h.canOpen⟩, path, rfl⟩

/-- With persistence off, `Store` writes nothing and persistence stays off. -/
theorem store_of_off {s : MessageStore} (h : s.config.enablePersistence = false) (m : ChatMessage)
    (now : Int) : (s.store localTime m now).config.enablePersistence = false ∧
      (s.store localTime m now).fs = s.fs := by
  simp [store, h]

end MessageStore

variable (localTime : Int → Tm)

/-! ## What a handler does to the store and the log -/

/-- A handler keeps the store and prints no chat line. -/
def Quiet (a a' : App) : Prop :=
  a'.messageStore = a.messageStore ∧ ∃ L, a'.log = a.log ++ L ∧ ∀ l ∈ L, l.isChat = false

/-- A handler keeps the store and prints no chat line, or it stores one message and prints
that message's chat line. -/
def StoreStep (a a' : App) : Prop :=
  Quiet a a' ∨ ∃ m now, a'.messageStore = a.messageStore.store localTime m now ∧
    a'.log = a.log ++ [.chat m.room m.senderName m.content]

namespace Quiet

variable {a a' : App}

theorem of_eq (hs : a'.messageStore = a.messageStore) (hl : a'.log = a.log) : Quiet a a' :=
  ⟨hs, [], by rw [hl, List.append_nil], by simp⟩

theorem print (hs : a'.messageStore = a.messageStore) (hl : a'.log = a.log) {l : LogLine}
    (hc : l.isChat = false) : Quiet a (a'.print l) :=
  ⟨hs, [l], by rw [App.print, hl], by simpa using hc⟩

theorem ite {p : Prop} [Decidable p] {x y : App × List Effect} (hx : Quiet a x.1)
    (hy : Quiet a y.1) : Quiet a (if p then x else y).1 := by
  split <;> assumption

/-- Quiet from a state with the same store and log. -/
theorem of_same {a₀ : App} (h : Quiet a a') (hs : a.messageStore = a₀.messageStore)
    (hl : a.log = a₀.log) : Quiet a₀ a' :=
  ⟨h.1.trans hs, by rw [← hl]; exact h.2⟩

end Quiet

theorem StoreStep.ite {a : App} {p : Prop} [Decidable p] {x y : App × List Effect}
    (hx : StoreStep localTime a x.1) (hy : StoreStep localTime a y.1) :
    StoreStep localTime a (if p then x else y).1 := by
  split <;> assumption

theorem processCommand_quiet (a : App) (srv : IOCPServer) (c : Int) (cmd : String) (clk : Clock) :
    Quiet a (processCommand localTime a srv c cmd clk).1 := by
  unfold processCommand joinCommand createCommand leaveCommand whisperCommand kickCommand
    banCommand muteCommand
  dsimp only
  repeat' apply Quiet.ite
  all_goals first
    | exact .of_eq rfl rfl
    | exact .print rfl rfl rfl
    | split <;> first | exact .of_eq rfl rfl | exact .print rfl rfl rfl

theorem storeStep_handleMessage (a : App) (srv : IOCPServer) (c : Int) (message : String)
    (clk : Clock) : StoreStep localTime a (handleMessage localTime a srv c message clk).1 := by
  rw [handleMessage_eq]
  dsimp only
  have quiet : ∀ {a' : App}, a'.messageStore = a.messageStore → a'.log = a.log →
      StoreStep localTime a a' := fun hs hl => .inl (.of_eq hs hl)
  refine .ite _ (quiet rfl rfl) (.ite _ (quiet rfl rfl) (.ite _ (quiet rfl rfl)
    (.ite _ (.inl (.print rfl rfl rfl)) (.ite _ ?command (.inr ⟨_, _, rfl, rfl⟩)))))
  exact .inl ((processCommand_quiet localTime _ srv c _ clk).of_same rfl rfl)

theorem storeStep_runTask (a : App) (srv : IOCPServer) (clk : Clock) (t : Task) :
    StoreStep localTime a (runTask localTime a srv clk t).1 := by
  cases t with
  | onConnect c sock =>
    rw [runTask, handleConnect_eq]
    dsimp only
    split
    · exact .inl (.print rfl rfl rfl)
    · exact .inl (.print rfl rfl rfl)
  | onMessage c m => exact storeStep_handleMessage localTime a srv c m clk
  | onDisconnect c =>
    rw [runTask, handleDisconnect_eq]
    exact .inl (.print rfl rfl rfl)

theorem sweep_quiet (a : App) (srv : IOCPServer) (now : Int) : Quiet a (sweep a srv now).1 :=
  ⟨rfl, _, rfl, by simp [LogLine.isChat]⟩

/-! ## The lines held by stopped workers -/

/-- The chat line of a message: what `BroadcastToRoom` prints for it. -/
def ChatMessage.chatLine (m : ChatMessage) : LogLine := .chat m.room m.senderName m.content

/-- The chat line a worker stopped after `Store` prints when it returns. -/
def Resume.heldLine : Resume → Option LogLine
  | .stored name room message => some (.chat room name message)
  | _ => none

/-- The rest of a handler keeps the store and prints the chat line it held, if any. -/
theorem Resume.run_chats (k : Resume) (a : App) (c : Int) :
    (k.run a c).1.messageStore = a.messageStore ∧
      (k.run a c).1.log.filter LogLine.isChat = a.log.filter LogLine.isChat ++ k.heldLine.toList := by
  cases k <;> simp [Resume.run, connectAdmitted, registerName, broadcastSend, disconnectRest,
    App.print, App.setClientName, LogLine.isChat, Resume.heldLine]

namespace UnorderedMap

variable {K V : Type} [DecidableEq K] {m : UnorderedMap K V} {k : K}

theorem entries_set_of_find?_eq_none (h : m.find? k = none) (v : V) :
    (m.set k v).entries = m.entries ++ [(k, v)] := by
  have hk : k ∉ m.entries.map Prod.fst := fun hm => by rw [mem_keys_iff, h] at hm; cases hm
  simp only [set, hk, dite_false]

theorem entries_erase_of_find?_eq_none (h : m.find? k = none) : (m.erase k).entries = m.entries :=
  List.filter_eq_self.2 fun p hp => by
    have hk : k ∉ m.entries.map Prod.fst := fun hm => by rw [mem_keys_iff, h] at hm; cases hm
    simpa using fun he : p.1 = k => hk (List.mem_map.2 ⟨p, hp, he⟩)

theorem perm_filter_key {v : V} : ∀ {l : List (K × V)}, (l.map Prod.fst).Nodup →
    l.lookup k = some v → l.Perm (l.filter (fun p => p.1 ≠ k) ++ [(k, v)])
  | [], _, h => by cases h
  | (a, b) :: l, hnd, h => by
    rw [List.map_cons, List.nodup_cons] at hnd
    rw [lookup_cons_ite] at h
    split at h
    · rename_i hka
      cases h; subst hka
      have hl : l.filter (fun p => !decide (p.1 = k)) = l := List.filter_eq_self.2 fun p hp => by
        simpa using fun he : p.1 = k => hnd.1 (List.mem_map.2 ⟨p, hp, he⟩)
      simpa [List.filter_cons, hl] using (List.perm_append_singleton (k, v) l).symm
    · rename_i hka
      simpa [List.filter_cons, Ne.symm hka] using (perm_filter_key hnd.2 h).cons (a, b)

/-- Erasing a key leaves the other entries, in their order. -/
theorem perm_erase {v : V} (h : m.find? k = some v) :
    m.entries.Perm ((m.erase k).entries ++ [(k, v)]) :=
  perm_filter_key m.nodup h

end UnorderedMap

namespace System

/-- The chat lines that workers stopped after `Store` print when they return, one for each. -/
def heldLines (s : System) : List LogLine := s.paused.entries.filterMap fun e => e.2.heldLine

theorem heldLines_set {s : System} {w : Nat} (h : s.paused.find? w = none) (k : Resume) (a : App) :
    { s with app := a, paused := s.paused.set w k }.heldLines = s.heldLines ++ k.heldLine.toList := by
  simp only [heldLines, UnorderedMap.entries_set_of_find?_eq_none h, List.filterMap_append]
  cases k <;> rfl

theorem heldLines_erase (s : System) (w : Nat) {k : Resume} (h : s.paused.find? w = some k)
    (srv : IOCPServer) :
    s.heldLines.Perm ({ s with server := srv, paused := s.paused.erase w }.heldLines ++
      k.heldLine.toList) := by
  have := (UnorderedMap.perm_erase h).filterMap fun e : Nat × Resume => e.2.heldLine
  rw [List.filterMap_append] at this
  cases hk : k.heldLine <;> simpa [heldLines, hk] using this

end System

/-! ## The disk with every file open -/

/-- The disk holds, after what it held at the start, the line of each stored message, in the
order of the `Store` calls, as the text-mode stream writes it; and the chat lines of the stored
messages are, up to order, the chat lines of the log and those `held` by stopped workers. -/
def DiskLogged (fs₀ : FileSystem) (a : App) (held : List LogLine) : Prop :=
  a.messageStore.Persisting ∧ ∃ L ms, a.messageStore.fs.appended = fs₀.appended ++ L ∧
    List.Forall₂ (fun e m => e.2 = textMode (MessageStore.line localTime m)) L ms ∧
    (ms.map ChatMessage.chatLine).Perm (a.log.filter LogLine.isChat ++ held)

section DiskLogged

variable {localTime} {fs₀ : FileSystem} {a a' : App} {held held' : List LogLine}

/-- A step that keeps the store moves chat lines between the log and the held ones. -/
theorem DiskLogged.keep (h : DiskLogged localTime fs₀ a held)
    (hst : a'.messageStore = a.messageStore)
    (hp : (a.log.filter LogLine.isChat ++ held).Perm (a'.log.filter LogLine.isChat ++ held')) :
    DiskLogged localTime fs₀ a' held' := by
  obtain ⟨hpers, L, ms, hL, hf, hperm⟩ := h
  exact ⟨hst ▸ hpers, L, ms, hst ▸ hL, hf, hperm.trans hp⟩

/-- A `Store` appends the message's line to the disk, and its chat line to the log or to the
held ones. -/
theorem DiskLogged.store (h : DiskLogged localTime fs₀ a held) {m : ChatMessage} {now : Int}
    (hst : a'.messageStore = a.messageStore.store localTime m now)
    (hp : (a.log.filter LogLine.isChat ++ held ++ [m.chatLine]).Perm
      (a'.log.filter LogLine.isChat ++ held')) :
    DiskLogged localTime fs₀ a' held' := by
  obtain ⟨hpers, L, ms, hL, hf, hperm⟩ := h
  obtain ⟨hpers', path, happ⟩ := hpers.store localTime m now
  refine ⟨hst ▸ hpers', L ++ [(path, textMode (MessageStore.line localTime m))], ms ++ [m],
    by rw [hst, happ, hL, List.append_assoc], List.rel_append hf (.cons rfl .nil), ?_⟩
  rw [List.map_append, List.map_singleton]
  exact (hperm.append_right _).trans hp

theorem DiskLogged.storeStep (h : DiskLogged localTime fs₀ a held) (hs : StoreStep localTime a a') :
    DiskLogged localTime fs₀ a' held := by
  rcases hs with ⟨hst, L, hl, hc⟩ | ⟨m, now, hst, hl⟩
  · have hnil : L.filter LogLine.isChat = [] := List.filter_eq_nil_iff.2 fun l hl' => by
      simp [hc l hl']
    exact h.keep hst (by rw [hl, List.filter_append, hnil, List.append_nil])
  · refine h.store hst ?_
    rw [hl, List.filter_append, List.append_assoc, List.append_assoc]
    exact .append_left _ (by simp [ChatMessage.chatLine, LogLine.isChat, List.perm_append_comm])

end DiskLogged

variable {localTime} in
/-- With persistence off, a handler keeps it off and leaves the disk as it was. -/
theorem StoreStep.off {a a' : App} (hs : StoreStep localTime a a')
    (h : a.messageStore.config.enablePersistence = false) :
    a'.messageStore.config.enablePersistence = false ∧
      a'.messageStore.fs = a.messageStore.fs := by
  rcases hs with ⟨hst, -⟩ | ⟨m, now, hst, -⟩ <;> rw [hst]
  exacts [⟨h, rfl⟩, MessageStore.store_of_off h m now]

namespace System

/-- **Every step keeps the disk in `Store` order**, with the chat lines of the stored messages
in the log or held: a worker stopped after `Store` holds its line, and prints it when it
returns. -/
theorem diskLogged_step {lt : Int → Tm} {fs₀ : FileSystem} {s s' : System} {a : Action}
    (hs : s.step lt a = some s') (hd : DiskLogged lt fs₀ s.app s.heldLines) :
    DiskLogged lt fs₀ s'.app s'.heldLines := by
  obtain ⟨-, hcase⟩ := step_cases hs
  rcases hcase with ⟨-, -, -, -, -, -, rfl⟩ | ⟨-, -, -, -, -, rfl⟩ | ⟨-, -, -, -, -, -, -, -, rfl⟩ |
    ⟨-, -, -, rfl⟩ | ⟨w, clk, t, a, k, -, hk, -, hb, rfl⟩ | ⟨w, clk, sent, t, p, -, -, rfl⟩ |
    ⟨now, -, rfl⟩ | rfl | ⟨-, -, rfl⟩ | ⟨-, rfl⟩
  all_goals try exact hd
  · -- a worker stops: after `Store` it holds the chat line
    rw [heldLines_set hk]
    rcases beginTask_stopped_eq lt hb with ⟨c, sock, -, rfl, rfl⟩ |
      ⟨c, m, -, -, ⟨rfl, -, rfl⟩ | ⟨rfl, rfl⟩⟩ | ⟨c, -, -, rfl, rfl⟩
    · exact hd.keep rfl (by simp [Resume.heldLine])
    · exact hd.keep rfl (by simp [Resume.heldLine])
    · exact hd.store rfl (by simp [Resume.heldLine, ChatMessage.chatLine])
    · exact hd.keep rfl (by simp [Resume.heldLine])
  · -- a worker returns: the rest of its handler prints the line it held
    simp only [commit_app, finishTask]
    cases hkw : s.paused.find? w with
    | some k =>
      obtain ⟨hst, hl⟩ := Resume.run_chats k s.app t.clientId
      refine hd.keep hst ?_
      rw [hl, List.append_assoc]
      exact .append_left _
        ((heldLines_erase s w hkw { s.server with threadPool := p }).trans List.perm_append_comm)
    | none =>
      have hheld : ({ s with
          server := { s.server with threadPool := p }
          paused := s.paused.erase w } : System).heldLines = s.heldLines := by
        simp only [heldLines, UnorderedMap.entries_erase_of_find?_eq_none hkw]
      exact hheld ▸ hd.storeStep (storeStep_runTask lt _ _ clk t)
  · exact hd.storeStep (.inl (sweep_quiet _ _ now))

/-- On two workers, client 1, named `bob`, sends `a` and `b`; each worker takes one chunk and
stops after `Store`, then the second worker returns first. -/
def swappedChats : List Action :=
  [.accept 1 ⟨"10.0.0.1", 5000⟩ true, .register true 0, .take 0, .finish 0 ⟨0, 0⟩ [],
    .complete 0 (.ok "bob\n") true 0, .take 0, .finish 0 ⟨0, 0⟩ [],
    .complete 1 (.ok "a\n") true 0, .complete 1 (.ok "b\n") true 0, .take 0, .take 1,
    .pause 0 ⟨0, 0⟩, .pause 1 ⟨0, 0⟩, .finish 1 ⟨0, 0⟩ [], .finish 0 ⟨0, 0⟩ []]

/-- **Persistence once off stays off.** From any state whose store has persistence off, every
run keeps it off and leaves the disk as it was, whichever files the disk could open. -/
theorem persistence_lost_for_good {lt : Int → Tm} {s s' : System} {acts : List Action}
    (hoff : s.app.messageStore.config.enablePersistence = false)
    (hr : s.run lt acts = some s') :
    s'.app.messageStore.config.enablePersistence = false ∧
      s'.app.messageStore.fs = s.app.messageStore.fs := by
  refine run_preserves (P := fun s₁ => s₁.app.messageStore.config.enablePersistence = false ∧
      s₁.app.messageStore.fs = s.app.messageStore.fs) (fun hs ⟨h, hfs⟩ => ?_) hr ⟨hoff, rfl⟩
  rcases step_app hs with he | ⟨clk, t, k, hb⟩ | ⟨clk, t, he⟩ | ⟨c, k, he⟩ | ⟨now, he⟩
  · exact he ▸ ⟨h, hfs⟩
  · rcases beginTask_stopped_eq lt hb with ⟨c, sock, -, -, ha⟩ | ⟨c, m, -, -, ⟨-, -, ha⟩ | ⟨-, ha⟩⟩ |
      ⟨c, -, -, -, ha⟩ <;> rw [ha]
    · exact ⟨h, hfs⟩
    · exact ⟨h, hfs⟩
    · exact (MessageStore.store_of_off h _ _).imp_right (·.trans hfs)
    · exact ⟨h, hfs⟩
  · rw [he]; exact ((storeStep_runTask lt _ _ clk t).off h).imp_right (·.trans hfs)
  · rw [he, (Resume.run_chats k _ c).1]; exact ⟨h, hfs⟩
  · rw [he]; exact (@StoreStep.off lt _ _ (.inl (sweep_quiet _ _ now)) h).imp_right (·.trans hfs)

/-- A disk that opens no file. -/
def deadDisk : FileSystem := ⟨fun _ => 0, [], fun _ => false, fun _ => false⟩

theorem persistence_lost_for_good_hi :
    ∃ s', (init noonClock mainConnConfig 1 1 deadDisk 0).run noonClock bobSaysHi = some s' ∧
      LogLine.chat "general" "bob" "hi" ∈ s'.app.log ∧ s'.app.messageStore.fs = deadDisk :=
  have hr : (init noonClock mainConnConfig 1 1 deadDisk 0).run noonClock bobSaysHi = some _ :=
    (Option.some_get (by decide)).symm
  ⟨_, hr, by decide, (persistence_lost_for_good (by decide) hr).2⟩

end System

end ChatServer
