import ChatServer.Proof.Kick
import ChatServer.Proof.Queries

/-!
# What the history holds

`#history` shows `GetRecent` of the sender's room. The only call of `MessageStore::Store` in the
server is the one in `BroadcastToRoom`, which then prints the line to the server log; no
command writes to the store, and no handler clears it. So:

* `chat_line_in_history`: after a chat line of a named client, the history of its room is the
  last `min(n, max_messages_per_room)` of the old queue followed by the line, and no other
  room's history changes.
* `historyLogged_step`, `history_holds_broadcast_lines`: in every run, every message a
  `GetRecent` of a room returns belongs to that room and was broadcast there: the server log
  has its chat line, or a worker stopped after `Store` holds the line and prints it when it
  returns. `Store` and the printing are two calls, so a `#history` on another worker can show a
  message whose line is not yet in the log.
* `whisper_leaves_no_trace`: a `#whisper` changes neither the store, nor the log, nor the rooms,
  nor the names, and sends only to the sender and to the client `FindClient` finds for the
  target.
-/

namespace ChatServer

variable (localTime : Int → Tm)

/-! ## Which handlers write the store -/

theorem messageStore_ite {p : Prop} [Decidable p] {x y : App × List Effect} {st : MessageStore}
    (hx : x.1.messageStore = st) (hy : y.1.messageStore = st) :
    (if p then x else y).1.messageStore = st := by
  split <;> assumption

theorem processCommand_messageStore (a : App) (srv : IOCPServer) (c : Int) (cmd : String)
    (clk : Clock) : (processCommand localTime a srv c cmd clk).1.messageStore = a.messageStore := by
  unfold processCommand joinCommand createCommand leaveCommand whisperCommand kickCommand
    banCommand muteCommand
  dsimp only
  repeat' apply messageStore_ite
  all_goals first
    | rfl
    | split <;> rfl

/-- Every message of the store's queues belongs to the room it is stored with, and its chat line
is in the log or still to be printed (`pending` of its name, room and text). -/
def HistoryLogged (a : App) (pending : String → String → String → Prop) : Prop :=
  ∀ r msg, msg ∈ (a.messageStore.roomMessages.find? r).getD [] → msg.room = r ∧
    (LogLine.chat msg.room msg.senderName msg.content ∈ a.log ∨
      pending msg.senderName msg.room msg.content)

namespace HistoryLogged

variable {a a' : App} {P Q : String → String → String → Prop}

/-- A handler that keeps the store and only appends to the log keeps the invariant, with every
line still to be printed printed now or still pending. -/
theorem mono (h : HistoryLogged a P) (hs : a'.messageStore = a.messageStore)
    (hl : ∃ L, a'.log = a.log ++ L)
    (hP : ∀ n r m, P n r m → LogLine.chat r n m ∈ a'.log ∨ Q n r m) : HistoryLogged a' Q := by
  obtain ⟨L, hL⟩ := hl
  intro r msg hm
  rw [hs] at hm
  obtain ⟨hr, hc | hp⟩ := h r msg hm
  · exact ⟨hr, .inl (hL ▸ List.mem_append_left _ hc)⟩
  · exact ⟨hr, hP _ _ _ hp⟩

theorem imp (h : HistoryLogged a P) (hP : ∀ n r m, P n r m → Q n r m) : HistoryLogged a Q :=
  h.mono rfl ⟨[], (List.append_nil _).symm⟩ fun n r m hp => .inr (hP n r m hp)

/-- `Store` of a message leaves its chat line to be printed. -/
theorem store (h : HistoryLogged a P) {msg : ChatMessage} {now : Int}
    (hs : a'.messageStore = a.messageStore.store localTime msg now) (hl : a'.log = a.log) :
    HistoryLogged a' fun n r m => P n r m ∨ (n = msg.senderName ∧ r = msg.room ∧ m = msg.content) := by
  intro r x hx
  rw [hl]
  rw [hs, MessageStore.store_roomMessages, UnorderedMap.find?_alter] at hx
  split at hx
  · rename_i hr
    rcases List.mem_append.1 (List.mem_of_mem_drop hx) with hx | hx
    · rw [← hr] at hx
      exact (h r x hx).imp_right (Or.imp_right .inl)
    · obtain rfl := List.mem_singleton.1 hx
      exact ⟨hr.symm, .inr (.inr ⟨rfl, rfl, rfl⟩)⟩
  · exact (h r x hx).imp_right (Or.imp_right .inl)

theorem ite {p : Prop} [Decidable p] {x y : App × List Effect} (hx : HistoryLogged x.1 P)
    (hy : HistoryLogged y.1 P) : HistoryLogged (if p then x else y).1 P := by
  split <;> assumption

end HistoryLogged

variable {P : String → String → String → Prop}

/-- The rest of `BroadcastToRoom` prints the chat line of the message stored before it. -/
theorem historyLogged_broadcastSend {a : App} {c : Int} {name room message : String}
    (h : HistoryLogged a fun n r m => P n r m ∨ (n = name ∧ r = room ∧ m = message)) :
    HistoryLogged (broadcastSend a c name room message).1 P :=
  h.mono rfl ⟨_, rfl⟩ fun n r m => by
    rintro (hp | ⟨rfl, rfl, rfl⟩)
    exacts [.inr hp, .inl (List.mem_append_right _ (List.mem_singleton_self _))]

theorem historyLogged_broadcastToRoom {a : App} (h : HistoryLogged a P) (c : Int) (message : String)
    (clk : Clock) : HistoryLogged (broadcastToRoom localTime a c message clk).1 P := by
  unfold broadcastToRoom broadcastStore Part.finish Resume.run
  exact historyLogged_broadcastSend (h.store localTime (by rfl) (by rfl))

theorem historyLogged_handleMessage {a : App} (h : HistoryLogged a P) (srv : IOCPServer) (c : Int)
    (message : String) (clk : Clock) :
    HistoryLogged (handleMessage localTime a srv c message clk).1 P := by
  rw [handleMessage_eq]
  dsimp only
  refine .ite h (.ite h (.ite h (.ite ?register (.ite ?command ?chat))))
  case register => exact h.mono rfl ⟨_, rfl⟩ fun _ _ _ => .inr
  case command =>
    obtain ⟨L, hL, -⟩ := (processCommand_keeps localTime (a := { a with
      connectionManager := _ }) (c := c) srv (trimTrailing message) clk).log
    exact h.mono (processCommand_messageStore ..) ⟨L, hL⟩ fun _ _ _ => .inr
  case chat => exact historyLogged_broadcastToRoom localTime h _ _ _

theorem historyLogged_runTask {a : App} (h : HistoryLogged a P) (srv : IOCPServer) (clk : Clock)
    (t : Task) : HistoryLogged (runTask localTime a srv clk t).1 P := by
  cases t with
  | onConnect c sock =>
    rw [runTask, handleConnect_eq]
    dsimp only
    split
    · exact h.mono rfl ⟨_, rfl⟩ fun _ _ _ => .inr
    · exact h.mono rfl ⟨_, rfl⟩ fun _ _ _ => .inr
  | onMessage c m => exact historyLogged_handleMessage localTime h srv c m clk
  | onDisconnect c =>
    rw [runTask, handleDisconnect_eq]
    exact h.mono rfl ⟨_, rfl⟩ fun _ _ _ => .inr

/-- Up to its stop a handler stores at most one message, whose chat line is left to the rest
of `BroadcastToRoom`. -/
theorem historyLogged_beginTask {a a' : App} (h : HistoryLogged a P) {srv : IOCPServer}
    {clk : Clock} {t : Task} {k : Resume} (hb : beginTask localTime a srv clk t = .stopped a' k) :
    HistoryLogged a' fun n r m => P n r m ∨ k = .stored n r m := by
  rcases beginTask_stopped_eq localTime hb with ⟨c, sock, -, -, rfl⟩ | ⟨c, m, -, -, ⟨-, -, rfl⟩ | ⟨rfl, rfl⟩⟩ |
    ⟨c, -, -, -, rfl⟩
  · exact h.mono rfl ⟨[], (List.append_nil _).symm⟩ fun _ _ _ hp => .inr (.inl hp)
  · exact h.mono rfl ⟨[], (List.append_nil _).symm⟩ fun _ _ _ hp => .inr (.inl hp)
  · refine (h.store localTime (by rfl) (by rfl)).imp ?_
    rintro n r m' (hp | ⟨rfl, rfl, rfl⟩)
    exacts [.inl hp, .inr rfl]
  · exact h.mono rfl ⟨[], (List.append_nil _).symm⟩ fun _ _ _ hp => .inr (.inl hp)

/-- The rest of a handler from where it stopped prints the chat line its stop left pending. -/
theorem historyLogged_resume {a : App} (c : Int) (k : Resume)
    (h : HistoryLogged a fun n r m => P n r m ∨ k = .stored n r m) :
    HistoryLogged (k.run a c).1 P := by
  cases k with
  | admitted ip =>
    exact h.mono rfl ⟨_, rfl⟩ fun _ _ _ hp => .inr (hp.resolve_right nofun)
  | naming msg =>
    exact h.mono rfl ⟨_, rfl⟩ fun _ _ _ hp => .inr (hp.resolve_right nofun)
  | stored name room message =>
    refine historyLogged_broadcastSend (h.imp fun n r m hp => hp.imp_right fun he => ?_)
    cases he
    exact ⟨rfl, rfl, rfl⟩
  | releasing name room =>
    exact h.mono rfl ⟨_, rfl⟩ fun _ _ _ hp => .inr (hp.resolve_right nofun)

/-! ## A chat line goes into its room's history -/

/-- **A chat line is the newest entry of its room's history.** For every application state,
a chunk of a named client that passes the checks of `HandleMessage` and does not start with
`#` is stored with the sender's room: for every `n`, `GetRecent` of that room returns the last
`min(n, max_messages_per_room)` of the old queue followed by the line, and `GetRecent` of any
other room is unchanged. -/
theorem chat_line_in_history (a : App) (srv : IOCPServer) {c : Int} {m : String} {clk : Clock}
    {a₁ : App} (h : afterChecks a c m clk = some a₁) (hname : a.getClientName c ≠ placeholder c)
    (hfront : (trimTrailing m).front ≠ '#') (r : String) (n : Nat) :
    (handleMessage localTime a srv c m clk).1.messageStore.getRecent r n =
      if r = a.chatRooms.getClientRoom c then
        MessageStore.keepLast (min n a.messageStore.config.maxMessagesPerRoom)
          ((a.messageStore.roomMessages.find? r).getD [] ++
            [⟨c, a.getClientName c, r, trimTrailing m, clk.system⟩])
      else a.messageStore.getRecent r n := by
  rw [handleMessage_of_afterChecks localTime srv h, if_neg fun h' => hname h'.1, if_neg hfront,
    afterChecks_eq h]
  show (a.messageStore.store localTime ⟨c, a.getClientName c, a.chatRooms.getClientRoom c,
    trimTrailing m, clk.system⟩ clk.system).getRecent r n = _
  rw [MessageStore.getRecent_eq, MessageStore.store_roomMessages, UnorderedMap.find?_alter]
  split_ifs with hr
  · subst hr
    rw [Option.getD_some, MessageStore.keepLast_keepLast]
  · rw [MessageStore.getRecent_eq]

theorem chat_line_in_history_bob :
    (handleMessage System.noonClock System.namedState.app System.namedState.server 1 "hi\n"
      ⟨0, 0⟩).1.messageStore.getRecent "general" 1 = [⟨1, "bob", "general", "hi", 0⟩] :=
  (chat_line_in_history System.noonClock _ _ (Option.some_get (by decide)).symm (by decide)
    (by decide) "general" 1).trans (by decide)

/-! ## A whisper leaves no trace -/

theorem mem_sendToClient {e : Effect} {d : Int} {msg : String} (h : e ∈ sendToClient d msg) :
    ∃ text, e = .send d text := by
  unfold sendToClient at h
  split_ifs at h <;> simp_all

/-- Whatever follows the target's name, `#whisper`'s branch changes nothing of the application
state and sends only to the sender and to `FindClient` of the target. -/
theorem whisperCommand_private (a : App) (c : Int) (name : String) {iss iss' : Istream}
    {t : String} (h : iss.readWord = (some t, iss')) :
    (whisperCommand a c name iss).1 = a ∧ ∀ e ∈ (whisperCommand a c name iss).2,
      ∃ text, e = .send c text ∨ e = .send (a.findClient t) text := by
  simp only [whisperCommand, h, Option.getD_some]
  split_ifs <;> refine ⟨rfl, fun e he => ?_⟩ <;> dsimp only at he
  · exact (mem_sendToClient he).imp fun _ => .inl
  · exact (mem_sendToClient he).imp fun _ => .inl
  · rcases List.mem_append.1 he with he | he
    · exact (mem_sendToClient he).imp fun _ => .inr
    · exact (mem_sendToClient he).imp fun _ => .inl

/-- A command whose first word is `#whisper` is `#whisper`'s branch. -/
theorem processCommand_whisper (a : App) (srv : IOCPServer) (c : Int) (clk : Clock)
    {cmd : String} (h : ((Istream.mk cmd.toList true).readWord).1 = some "#whisper") :
    processCommand localTime a srv c cmd clk =
      whisperCommand a c (a.getClientName c) ((Istream.mk cmd.toList true).readWord).2 := by
  unfold processCommand
  dsimp only
  rw [h, Option.getD_some]
  simp

theorem whisper_command_toList (t rest : String) :
    ("#whisper " ++ t ++ rest).toList =
      [] ++ "#whisper".toList ++ (' ' :: (t.toList ++ rest.toList)) := by
  simp [String.toList]

/-- **A whisper leaves no trace.** For every application state, a chunk
`#whisper <t><rest>` from any client `c` that passes the checks of `HandleMessage`, with `t`
one word and `rest` empty or starting with a blank, leaves the store, the log, the rooms and
the names as they were, and sends only to `c` and to the client `FindClient(t)`. -/
theorem whisper_leaves_no_trace (a : App) (srv : IOCPServer) {c : Int} {m : String}
    {clk : Clock} {a₁ : App} (h : afterChecks a c m clk = some a₁) {t rest : String}
    (hcmd : trimTrailing m = "#whisper " ++ t ++ rest) (ht : t.toList ≠ [])
    (hts : ∀ ch ∈ t.toList, isSpace ch = false)
    (hrest : ∀ ch ∈ rest.toList.head?, isSpace ch = true) :
    (handleMessage localTime a srv c m clk).1.messageStore = a.messageStore ∧
      (handleMessage localTime a srv c m clk).1.log = a.log ∧
      (handleMessage localTime a srv c m clk).1.chatRooms = a.chatRooms ∧
      (handleMessage localTime a srv c m clk).1.clientNames = a.clientNames ∧
      ∀ e ∈ (handleMessage localTime a srv c m clk).2,
        ∃ text, e = .send c text ∨ e = .send (a.findClient t) text := by
  have hfront : (trimTrailing m).front = '#' := by rw [hcmd]; rfl
  have h₁ : (Istream.mk ("#whisper " ++ t ++ rest).toList true).readWord =
      (some "#whisper", ⟨' ' :: (t.toList ++ rest.toList), true⟩) := by
    rw [whisper_command_toList]
    exact Istream.readWord_word (fun _ h => absurd h (List.not_mem_nil _)) (by decide) (by decide)
      fun _ h => by cases h; rfl
  have h₂ : (Istream.mk (' ' :: (t.toList ++ rest.toList)) true).readWord =
      (some t, ⟨rest.toList, !rest.toList.isEmpty⟩) :=
    @Istream.readWord_word [' '] t.toList rest.toList (by decide) ht hts hrest
  have hr : handleMessage localTime a srv c m clk =
      whisperCommand { a with connectionManager := a₁.connectionManager } c (a.getClientName c)
        ⟨' ' :: (t.toList ++ rest.toList), true⟩ := by
    rw [handleMessage_of_afterChecks localTime srv h, if_neg fun h' => h'.2 hfront, if_pos hfront,
      hcmd, processCommand_whisper localTime a₁ srv c clk (by rw [h₁]), h₁, afterChecks_eq h]
    rfl
  obtain ⟨hkeep, hsends⟩ :=
    whisperCommand_private { a with connectionManager := a₁.connectionManager } c _ h₂
  rw [hr, hkeep]
  exact ⟨rfl, rfl, rfl, rfl, hsends⟩

theorem whisper_leaves_no_trace_bob :
    ∃ s, System.boot.run System.noonClock System.bobThenSecond = some s ∧
      (handleMessage System.noonClock s.app s.server 2 "#whisper bob psst\n" ⟨0, 0⟩).1.messageStore =
        s.app.messageStore ∧
      (handleMessage System.noonClock s.app s.server 2 "#whisper bob psst\n" ⟨0, 0⟩).1.log = s.app.log ∧
      (handleMessage System.noonClock s.app s.server 2 "#whisper bob psst\n" ⟨0, 0⟩).1.chatRooms =
        s.app.chatRooms ∧
      (handleMessage System.noonClock s.app s.server 2 "#whisper bob psst\n" ⟨0, 0⟩).1.clientNames =
        s.app.clientNames ∧
      ∀ e ∈ (handleMessage System.noonClock s.app s.server 2 "#whisper bob psst\n" ⟨0, 0⟩).2,
        ∃ text, e = .send 2 text ∨ e = .send (s.app.findClient "bob") text :=
  have hr : System.boot.run System.noonClock System.bobThenSecond = some _ :=
    (Option.some_get (by decide)).symm
  ⟨_, hr, whisper_leaves_no_trace System.noonClock _ _ (Option.some_get (by decide)).symm
    (show trimTrailing "#whisper bob psst\n" = "#whisper " ++ "bob" ++ " psst" by decide)
    (by decide) (by decide) (by decide)⟩

/-! ## The history holds broadcast lines only -/

namespace System

/-- A worker is stopped in `BroadcastToRoom` after storing the message `message` of `name` in
`room`: it prints the chat line when it returns. -/
def PendingLine (s : System) (name room message : String) : Prop :=
  ∃ w, s.paused.find? w = some (.stored name room message)

/-- **One step keeps every stored message's chat line in the log or pending**: a worker that
stops after `Store` holds the line, and the rest of its `BroadcastToRoom` prints it. -/
theorem historyLogged_step {lt : Int → Tm} {s s' : System} {a : Action}
    (hs : s.step lt a = some s') (hh : HistoryLogged s.app s.PendingLine) :
    HistoryLogged s'.app s'.PendingLine := by
  obtain ⟨-, hcase⟩ := step_cases hs
  rcases hcase with ⟨-, -, -, -, -, -, rfl⟩ | ⟨-, -, -, -, -, rfl⟩ | ⟨-, -, -, -, -, -, -, -, rfl⟩ |
    ⟨-, -, -, rfl⟩ | ⟨w, clk, t, a, k, -, hk, -, hb, rfl⟩ | ⟨w, clk, sent, t, p, hp, -, rfl⟩ |
    ⟨now, -, rfl⟩ | rfl | ⟨-, -, rfl⟩ | ⟨-, rfl⟩
  all_goals try exact hh
  · -- a worker stops after `Store`: the line is pending at its stop
    refine (historyLogged_beginTask lt hh hb).imp fun n r m => ?_
    rintro (⟨w', hw'⟩ | rfl)
    · have hne : w' ≠ w := by rintro rfl; rw [hk] at hw'; cases hw'
      exact ⟨w', by simp [UnorderedMap.find?_set, hne, hw']⟩
    · exact ⟨w, by simp [UnorderedMap.find?_set]⟩
  · -- a worker returns: the rest of its handler prints the line it held
    have hkeep : ∀ n r m w', s.paused.find? w' = some (.stored n r m) → w' ≠ w →
        PendingLine { s with server := { s.server with threadPool := p }, paused := s.paused.erase w }
          n r m := fun n r m w' hw' hne => ⟨w', by simp [UnorderedMap.find?_erase, hne, hw']⟩
    simp only [commit_app, System.finishTask]
    cases hkw : s.paused.find? w with
    | some k =>
      refine historyLogged_resume t.clientId k (hh.imp fun n r m ⟨w', hw'⟩ => ?_)
      by_cases hne : w' = w
      · subst hne; rw [hkw] at hw'; cases hw'; exact .inr rfl
      · exact .inl (hkeep n r m w' hw' hne)
    | none =>
      refine historyLogged_runTask lt (hh.imp fun n r m ⟨w', hw'⟩ => ?_) _ _ _
      exact hkeep n r m w' hw' fun he => by subst he; rw [hkw] at hw'; cases hw'
  · exact hh.mono rfl ⟨_, rfl⟩ fun _ _ _ => .inr

/-- **The history holds only lines broadcast in its room.** In every run from the state `main`
starts, every message that `GetRecent(r, n)` returns, for any room `r` and count `n`, is stored
with room `r`, and the server log has the chat line `BroadcastToRoom` printed for it, or a
worker is stopped in `BroadcastToRoom` after storing it and prints that line when it
returns. -/
theorem history_holds_broadcast_lines {lt : Int → Tm} {conn : CMConfig}
    {poolSize processors : Nat} {fs : FileSystem} {wall : Int} {acts : List Action} {s : System}
    (hr : (init lt conn poolSize processors fs wall).run lt acts = some s) (r : String) (n : Nat)
    (msg : ChatMessage) (hm : msg ∈ s.app.messageStore.getRecent r n) :
    msg.room = r ∧ (LogLine.chat msg.room msg.senderName msg.content ∈ s.app.log ∨
      ∃ w, s.paused.find? w = some (.stored msg.senderName msg.room msg.content)) := by
  have hinit : HistoryLogged (init lt conn poolSize processors fs wall).app
      (init lt conn poolSize processors fs wall).PendingLine := by
    intro r msg hm
    simp only [init, MessageStore.new] at hm
    split at hm <;> simp at hm
  have hrun := run_preserves (P := fun s => HistoryLogged s.app s.PendingLine)
    (fun hs hh => historyLogged_step hs hh) hr hinit
  rw [MessageStore.getRecent_eq] at hm
  exact hrun r msg (List.mem_of_mem_drop hm)

/-- On two workers, client 1 is named `bob` (`namedClient`), then says `hi`, and the worker
that takes the chunk stops after `Store`. -/
def hiStored : List Action :=
  namedClient ++ [.complete 1 (.ok "hi\n") true 0, .take 0, .pause 0 ⟨0, 0⟩]

/-- The history of `general` shows the line while the log does not have it yet: a `#history`
on the other worker returns it. -/
example : ∃ s, pairBoot.run noonClock hiStored = some s ∧
    s.app.messageStore.getRecent "general" 1 = [⟨1, "bob", "general", "hi", 0⟩] ∧
    LogLine.chat "general" "bob" "hi" ∉ s.app.log ∧
    s.paused.find? 0 = some (.stored "bob" "general" "hi") :=
  ⟨_, (Option.some_get (by decide)).symm, by decide, by decide, by decide⟩

/-- Client 1 is named `bob` (`namedClient`), then says `hi` and a worker broadcasts it. -/
def bobSaysHi : List Action :=
  namedClient ++ [.complete 1 (.ok "hi\n") true 0, .take 0, .finish 0 ⟨0, 0⟩ []]

theorem history_holds_broadcast_lines_hi :
    ∃ s, boot.run noonClock bobSaysHi = some s ∧
      s.app.messageStore.getRecent "general" 1 = [⟨1, "bob", "general", "hi", 0⟩] ∧
      (⟨1, "bob", "general", "hi", 0⟩ : ChatMessage).room = "general" ∧
      (LogLine.chat "general" "bob" "hi" ∈ s.app.log ∨
        ∃ w, s.paused.find? w = some (.stored "bob" "general" "hi")) :=
  have hr : (init noonClock mainConnConfig 1 1 emptyDisk 0).run noonClock bobSaysHi = some _ :=
    (Option.some_get (by decide)).symm
  have hm : (⟨1, "bob", "general", "hi", 0⟩ : ChatMessage) ∈
      ((boot.run noonClock bobSaysHi).get (by decide)).app.messageStore.getRecent "general" 1 := by
    decide
  ⟨_, hr, by decide, history_holds_broadcast_lines hr "general" 1 _ hm⟩

end System

end ChatServer
