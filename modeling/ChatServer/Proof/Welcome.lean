import ChatServer.Proof.Ordering
import ChatServer.Proof.Outbound

/-!
# The welcome with one worker

A handler writes to its own client, to the members of a room, or to a client it finds by name
(`#whisper`, `#kick`, `#ban`, `#mute`). A client enters a room and gets a name only through its
own `on_connect` and `on_message`, so no other handler can write to it before its `on_connect`
has run. With one worker the pool runs the tasks one after the other, in the order they were
queued, and `on_connect` is queued before any chunk of its client: nothing of the client's own
runs before it either.

* `handleMessage_sendsOK`, `handleDisconnect_sends`: whom each handler writes to.
* `Inv.unwelcomed_step`: in every run with one worker, while the `on_connect` of a client has not
  been taken, or runs, the client has no room and no name, and only reads are posted for it.
* `welcome_first_with_one_worker`: so the first write posted to a client is the welcome of its
  `on_connect`. With two workers it need not be: another worker can answer the client's first
  command while its `on_connect` waits.
-/

namespace ChatServer

/-! ## Whom a handler writes to -/

/-- Client `x` is in a room of `a`, or has a name in `a`: a handler of another client can
write to it. -/
def Addressable (a : App) (x : Int) : Prop :=
  (∃ r, a.chatRooms.IsMember x r) ∨ (a.clientNames.find? x).isSome

/-- The writes of a handler of client `c` started on `a`, with its result `r`: to `c`, or to a
client addressable before or after. -/
def SendsOK (a : App) (c : Int) (r : App × List Effect) : Prop :=
  ∀ x m, Effect.send x m ∈ r.2 → x = c ∨ Addressable a x ∨ Addressable r.1 x

theorem eq_of_send_mem_sendToClient {x c : Int} {m t : String}
    (h : Effect.send x m ∈ sendToClient c t) : x = c := by
  unfold sendToClient at h
  split_ifs at h <;> simp_all

theorem mem_of_send_mem_sendToAll {x : Int} {ids : List Int} {m t : String}
    (h : Effect.send x m ∈ sendToAll ids t) : x ∈ ids := by
  obtain ⟨d, hd, hx⟩ := List.mem_flatMap.1 h
  exact eq_of_send_mem_sendToClient hx ▸ hd

namespace SendsOK

variable {a a' : App} {c : Int}

theorem nil : SendsOK a c (a', []) := fun _ _ h => absurd h (List.not_mem_nil _)

theorem append {e₁ e₂ : List Effect} (h₁ : SendsOK a c (a', e₁)) (h₂ : SendsOK a c (a', e₂)) :
    SendsOK a c (a', e₁ ++ e₂) := fun x m h =>
  (List.mem_append.1 h).elim (h₁ x m) (h₂ x m)

theorem own (t : String) : SendsOK a c (a', sendToClient c t) :=
  fun _ _ h => .inl (eq_of_send_mem_sendToClient h)

theorem disconnect (d : Int) : SendsOK a c (a', [.disconnect d]) := fun _ _ h => by simp at h

/-- A write to a client found by name. -/
theorem named {x : Int} (hx : (a.clientNames.find? x).isSome) (t : String) :
    SendsOK a c (a', sendToClient x t) :=
  fun _ _ h => .inr (.inl (.inr (eq_of_send_mem_sendToClient h ▸ hx)))

/-- Writes to members of a room after the handler. -/
theorem members {ids : List Int} {r : String} (hids : ∀ x ∈ ids, x ∈ a'.chatRooms.getRoomMembers r)
    (t : String) : SendsOK a c (a', sendToAll ids t) := fun _ _ h =>
  .inr (.inr (.inl ⟨r, ChatRoomManager.mem_getRoomMembers.1 (hids _ (mem_of_send_mem_sendToAll h))⟩))

/-- The effects of `#kick` and `#ban`: a message to the target found by name, its
disconnection, and the reply. -/
theorem target {n : String} (h : a.findClient n ≠ -1) (m₁ m₂ : String) :
    SendsOK a c (a', sendToClient (a.findClient n) m₁ ++ [.disconnect (a.findClient n)] ++
      sendToClient c m₂) :=
  .append (.append (.named (App.findClient_isSome h) _) (.disconnect _)) (.own _)

theorem ite {p : Prop} [Decidable p] {x y : App × List Effect} (hx : SendsOK a c x)
    (hy : SendsOK a c y) : SendsOK a c (if p then x else y) := by
  split <;> assumption

/-- The clients a handler can address depend on the rooms and the names only. -/
theorem of_before {a₁ : App} {r : App × List Effect} (h : SendsOK a₁ c r)
    (hr : a₁.chatRooms = a.chatRooms) (hn : a₁.clientNames = a.clientNames) : SendsOK a c r := by
  simpa only [SendsOK, Addressable, hr, hn] using h

end SendsOK

section Commands

variable (localTime : Int → Tm) {a : App} {c : Int} {name : String} {iss : Istream}

theorem filter_mem {ids : List Int} {p : Int → Bool} : ∀ x ∈ ids.filter p, x ∈ ids :=
  fun _ hx => (List.mem_filter.1 hx).1

theorem joinCommand_sendsOK : SendsOK a c (joinCommand a c name iss) := by
  unfold joinCommand
  dsimp only
  refine .ite (.own _) (.ite (.own _) (.ite (.append (.append ?_ (.members filter_mem _)) (.own _))
    (.own _)))
  split
  · exact .members (fun _ => id) _
  · exact .nil

theorem processCommand_sendsOK (srv : IOCPServer) (cmd : String) (clk : Clock) :
    SendsOK a c (processCommand localTime a srv c cmd clk) := by
  unfold processCommand
  dsimp only
  refine .ite (.disconnect c) (.ite (.own _) (.ite (.own _) (.ite joinCommand_sendsOK
    (.ite ?create (.ite ?leave (.ite (.own _) (.ite ?whisper (.ite (.own _) (.ite ?kick
    (.ite ?ban (.ite ?mute (.own _))))))))))))
  case create => unfold createCommand; exact .ite (.own _) (.ite (.own _) (.own _))
  case leave => unfold leaveCommand; exact .ite (.own _) (.own _)
  case whisper =>
    unfold whisperCommand; dsimp only
    split_ifs with _ h
    · exact .own _
    · exact .own _
    · exact .append (.named (App.findClient_isSome h) _) (.own _)
  case kick =>
    unfold kickCommand; dsimp only
    split
    exacts [.target ‹_› _ _, .own _]
  case ban =>
    unfold banCommand; dsimp only
    split
    · split
      exacts [.target ‹_› _ _, .nil]
    · exact .own _
  case mute =>
    unfold muteCommand; dsimp only
    split
    · exact .append (.named (App.findClient_isSome ‹_›) _) (.own _)
    · exact .own _

/-- **`HandleMessage` of client `c`** writes to `c`, to the members of a room after it runs,
and to clients found by name. -/
theorem handleMessage_sendsOK (srv : IOCPServer) (message : String) (clk : Clock) :
    SendsOK a c (handleMessage localTime a srv c message clk) := by
  rw [handleMessage_eq]
  dsimp only
  refine .ite .nil (.ite (.own _) (.ite (.own _) (.ite ?_ (.ite ?_ ?_))))
  · exact .members filter_mem _
  · exact .of_before (processCommand_sendsOK _ _ _ _) rfl rfl
  · exact .of_before (.members filter_mem _) rfl rfl

/-- `HandleDisconnect` writes only to the members of the room its client left. -/
theorem handleDisconnect_sends {x : Int} {m : String} (h : Effect.send x m ∈ (handleDisconnect a c).2) :
    ∃ r, (handleDisconnect a c).1.chatRooms.IsMember x r := by
  rw [handleDisconnect_eq] at h ⊢
  dsimp only at h ⊢
  split at h
  · exact ⟨_, ChatRoomManager.mem_getRoomMembers.1 (mem_of_send_mem_sendToAll h)⟩
  · cases h

end Commands

theorem sendToClient_welcome (c : Int) : sendToClient c welcome = [.send c welcome] := by
  unfold sendToClient; rw [if_neg (by decide), if_pos (by decide)]

/-- The rest of `HandleConnect` writes only to its own client, and only the welcome. -/
theorem connectAdmitted_sends {a : App} {c : Int} {ip : String} {x : Int} {m : String}
    (h : Effect.send x m ∈ (connectAdmitted a c ip).2) : x = c ∧ m = welcome := by
  simpa [connectAdmitted, sendToClient_welcome] using h

/-- `HandleConnect` writes only to its own client, and only the welcome. -/
theorem handleConnect_sends {a : App} {srv : IOCPServer} {c : Int} {sock : Socket} {now : Int}
    {x : Int} {m : String} (h : Effect.send x m ∈ (handleConnect a srv c sock now).2) :
    x = c ∧ m = welcome := by
  rw [handleConnect_eq] at h
  dsimp only at h
  split at h
  · simp at h
  · simpa [sendToClient_welcome] using h

theorem not_addressable {a : App} {c : Int} (hi : a.chatRooms.Inv)
    (hr : a.chatRooms.clientRooms.find? c = none) (hn : a.clientNames.find? c = none) :
    ¬Addressable a c := by
  rintro (⟨r, hm⟩ | hs)
  · rw [hi.member_iff, hr] at hm; cases hm
  · rw [hn] at hs; cases hs

/-- **A task that is neither the `on_connect` nor a chunk of client `c`**, run on a state where
`c` has no room and no name, leaves it so and writes nothing to it. -/
theorem runTask_unwelcomed (localTime : Int → Tm) {a : App} {c : Int} (hi : a.chatRooms.Inv)
    (hroom : a.chatRooms.clientRooms.find? c = none) (hname : a.clientNames.find? c = none)
    (srv : IOCPServer) (clk : Clock) {t : Task} (hconn : ∀ sk, t ≠ .onConnect c sk)
    (hmsg : ∀ m, t ≠ .onMessage c m) (hi' : (runTask localTime a srv clk t).1.chatRooms.Inv) :
    (runTask localTime a srv clk t).1.chatRooms.clientRooms.find? c = none ∧
      (runTask localTime a srv clk t).1.clientNames.find? c = none ∧
      ∀ m, Effect.send c m ∉ (runTask localTime a srv clk t).2 := by
  cases t with
  | onConnect d sk =>
    have hd : c ≠ d := fun e => hconn sk (e ▸ rfl)
    obtain ⟨hn, ⟨hr, -⟩ | ⟨hr, -⟩⟩ := handleConnect_spec a srv d sk clk.steady
    all_goals refine ⟨?_, hn.symm ▸ hname, fun m hm => hd (handleConnect_sends hm).1⟩
    · exact hr.symm ▸ hroom
    · simp [runTask, hr, ChatRoomManager.joinRoom_clientRooms, hd, hroom]
  | onMessage d m =>
    have hd : c ≠ d := fun e => hmsg m (e ▸ rfl)
    have hok := handleMessage_ok localTime (a := a) (c := d) srv m clk
    have hroom' := (ChatRoomManager.RoomsMove.star (P := fun m => m.clientRooms.find? c = none)
      (fun _ _ hmv _ hp => (hmv.clientRooms_other hd).trans hp) hok.1.rooms hi hroom).2
    have hname' := (hok.1.names c hd).trans hname
    refine ⟨hroom', hname', fun m' hm => ?_⟩
    rcases handleMessage_sendsOK localTime srv m clk c m' hm with h | h | h
    exacts [hd h, not_addressable hi hroom hname h, not_addressable hi' hroom' hname' h]
  | onDisconnect d =>
    obtain ⟨hr, hn, -⟩ := handleDisconnect_spec a d
    have hroom' : (handleDisconnect a d).1.chatRooms.clientRooms.find? c = none := by
      rw [hr, ChatRoomManager.leaveRoom_clientRooms]; split <;> simp [hroom]
    refine ⟨hroom', show (handleDisconnect a d).1.clientNames.find? c = none by
      rw [hn, UnorderedMap.find?_erase]; split <;> simp [hname], fun m hm => ?_⟩
    obtain ⟨r, hmem⟩ := handleDisconnect_sends hm
    exact Option.noConfusion (hroom'.symm.trans ((hi'.member_iff c r).1 hmem))

theorem not_mem_getRoomMembers {a : App} {c : Int} (hi : a.chatRooms.Inv)
    (hroom : a.chatRooms.clientRooms.find? c = none) (hname : a.clientNames.find? c = none)
    (r : String) : c ∉ a.chatRooms.getRoomMembers r := fun hm =>
  not_addressable hi hroom hname (.inl ⟨r, ChatRoomManager.mem_getRoomMembers.1 hm⟩)

/-- The rest of `OnDisconnect` and `HandleDisconnect` of any client, on a state where `c` has
no room and no name, leaves it so and writes nothing to it: the farewell goes to the members
of a room, and `c` is none. -/
theorem releasing_unwelcomed {a : App} {c : Int} (hi : a.chatRooms.Inv)
    (hroom : a.chatRooms.clientRooms.find? c = none) (hname : a.clientNames.find? c = none)
    (d : Int) (name room : String) :
    let r := (Resume.releasing name room).run a d
    r.1.chatRooms.clientRooms.find? c = none ∧ r.1.clientNames.find? c = none ∧
      ∀ m, Effect.send c m ∉ r.2 := by
  refine ⟨hroom, ?_, fun m hm => ?_⟩
  · simp [Resume.run, disconnectRest, App.print, UnorderedMap.find?_erase, hname]
  · simp only [Resume.run, disconnectRest] at hm
    split at hm
    · exact not_mem_getRoomMembers hi hroom hname _ (mem_of_send_mem_sendToAll hm)
    · cases hm

/-- **The rest of a handler of another client**, from where it stopped, on a state where `c`
has no room and no name, leaves it so and writes nothing to it. -/
theorem resume_unwelcomed {a : App} {c d : Int} (hi : a.chatRooms.Inv)
    (hroom : a.chatRooms.clientRooms.find? c = none) (hname : a.clientNames.find? c = none)
    (hd : c ≠ d) (k : Resume) :
    (k.run a d).1.chatRooms.clientRooms.find? c = none ∧ (k.run a d).1.clientNames.find? c = none ∧
      ∀ m, Effect.send c m ∉ (k.run a d).2 := by
  have hroomless := not_mem_getRoomMembers hi hroom hname
  cases k with
  | admitted ip =>
    refine ⟨?_, hname, fun m hm => hd (connectAdmitted_sends hm).1⟩
    simp [Resume.run, connectAdmitted, App.print, ChatRoomManager.joinRoom_clientRooms, hd, hroom]
  | naming msg =>
    refine ⟨hroom, by simp [Resume.run, registerName, App.print, App.setClientName, hd, hname],
      fun m hm => hroomless _ (filter_mem _ (mem_of_send_mem_sendToAll hm))⟩
  | stored name room message =>
    exact ⟨hroom, hname, fun m hm => hroomless _ (filter_mem _ (mem_of_send_mem_sendToAll hm))⟩
  | releasing name room => exact releasing_unwelcomed hi hroom hname d name room

/-! ## What the transport posts -/

namespace IOCPServer

variable {s : IOCPServer} {io : PerIoData}

/-- `Send` posts at most the write `PostWrite` builds. -/
theorem mem_pending_send {c : Int} {m : String} {len : Int} {sendPending : Bool}
    (h : io ∈ (s.send c m len sendPending).2.pending) :
    io ∈ s.pending ∨ ∃ sock, io = writeOp c sock m len := by
  unfold send postWrite at h
  split at h
  · exact .inl h
  · rename_i info hinfo
    simp only [hinfo] at h
    split at h
    · rcases List.mem_append.1 h with h | h
      exacts [.inl h, .inr ⟨_, List.mem_singleton.1 h⟩]
    · exact .inl h

/-- A handler's effects post only the writes of its `Send`s. -/
theorem mem_pending_applyAll {effs : List Effect} {sent : List Bool}
    (h : io ∈ (s.applyAll effs sent).pending) :
    io ∈ s.pending ∨ ∃ c m sock, Effect.send c m ∈ effs ∧ io = writeOp c sock m m.length := by
  induction effs generalizing s sent with
  | nil => exact .inl h
  | cons e effs ih =>
    rcases ih (s := Effect.apply s (sent.headD true) e) h with h | ⟨c, m, sock, he, rfl⟩
    · cases e with
      | send c m =>
        rcases mem_pending_send h with h | ⟨sock, rfl⟩
        exacts [.inl h, .inr ⟨c, m, sock, List.mem_cons_self _ _, rfl⟩]
      | disconnect c => exact .inl (by simpa [Effect.apply, disconnectClient] using h)
    · exact .inr ⟨c, m, sock, List.mem_cons_of_mem _ he, rfl⟩

/-- `PostRead` posts at most the operation it is given, with its kind. -/
theorem mem_pending_postRead {io' : PerIoData} {recvPending : Bool}
    (h : io' ∈ (s.postRead io recvPending).pending) :
    io' ∈ s.pending ∨ io'.operation = io.operation := by
  unfold postRead at h
  split at h
  · rcases List.mem_append.1 h with h | h
    exacts [.inl h, .inr (by rw [List.mem_singleton.1 h])]
  · exact .inl (by simpa using h)

/-- The accept thread's `accept()` posts nothing. -/
theorem acceptSocket_pending (sock : Socket) (peer : SockAddr) (associated : Bool) :
    (s.acceptSocket sock peer associated).pending = s.pending := by
  unfold acceptSocket; split <;> rfl

/-- The rest of `HandleAccept` posts only a read. -/
theorem mem_pending_handleAccept {sock : Socket} {recvPending : Bool} {now : Int}
    (h : io ∈ (s.handleAccept sock recvPending now).pending) :
    io ∈ s.pending ∨ io.operation = .read :=
  mem_pending_postRead h

/-- A completion posts only the read of `HandleRead`. -/
theorem mem_pending_complete {io' : PerIoData} {r : Completion} {recvPending : Bool} {now : Int}
    (h : io' ∈ (s.complete io r recvPending now).pending) :
    io' ∈ s.pending ∨ io'.operation = .read := by
  unfold complete at h
  split at h
  · exact .inl (by simpa using h)
  · split at h
    · exact .inl (by simpa using h)
    · split at h
      · rename_i hop
        unfold handleRead at h
        rcases mem_pending_postRead h with h | h
        · left; split at h <;> exact h
        · exact .inr (h.trans hop)
      · exact .inl h
      · exact .inl h

end IOCPServer

namespace System

variable {localTime : Int → Tm} {s s' : System} {c : Int}

/-- The `on_connect` of client `c` has not been taken, or runs. -/
def Connecting (s : System) (c : Int) : Prop :=
  (∀ sk, Task.onConnect c sk ∉ s.server.threadPool.started) ∨
    ∃ sk, Task.onConnect c sk ∈ s.server.threadPool.running

/-- A client before its welcome: no room, no name, and only reads posted for it. -/
structure Unwelcomed (s : System) (c : Int) : Prop where
  room : s.app.chatRooms.clientRooms.find? c = none
  name : s.app.clientNames.find? c = none
  reads : ∀ io ∈ s.server.pending, io.clientId = c → io.operation = .read

theorem Connecting.of_extends (h : s'.Connecting c)
    (hx : ThreadPool.Extends s.server.threadPool s'.server.threadPool) : s.Connecting c := by
  simpa only [Connecting, ThreadPool.running, hx.started, hx.workers] using h

/-- A step that keeps the client's room and name and posts only reads keeps it unwelcomed. -/
theorem Unwelcomed.frame (h : s.Unwelcomed c)
    (hroom : s'.app.chatRooms.clientRooms.find? c = s.app.chatRooms.clientRooms.find? c)
    (hname : s'.app.clientNames.find? c = s.app.clientNames.find? c)
    (hpend : ∀ io ∈ s'.server.pending, io ∈ s.server.pending ∨ io.operation = .read) :
    s'.Unwelcomed c :=
  ⟨hroom.trans h.room, hname.trans h.name, fun io hio hc =>
    (hpend io hio).elim (fun h' => h.reads io h' hc) id⟩

/-- An `on_connect` still queued has not been taken: `HandleAccept` queues one per id. -/
theorem Inv.not_started_of_queued (h : s.Inv) {sk : Socket}
    (ht : Task.onConnect c sk ∈ s.server.threadPool.tasks) (sk' : Socket) :
    Task.onConnect c sk' ∉ s.server.threadPool.started := fun hs => by
  have hn := h.server.connect_once
  rw [ThreadPool.history, List.filterMap_append] at hn
  exact List.disjoint_of_nodup_append hn (List.mem_filterMap.2 ⟨_, hs, rfl⟩)
    (List.mem_filterMap.2 ⟨_, ht, rfl⟩)

/-- With one worker, no task runs after a worker returns. -/
theorem running_finish_one {p q : ThreadPool Task} {w : Nat} {t : Task}
    (hw : p.workers.length = 1) (h : p.finish w = some (t, q)) : q.running = [] := by
  obtain ⟨hwt, rfl⟩ := ThreadPool.finish_eq h
  obtain ⟨x, hx⟩ := List.length_eq_one.1 hw
  rw [hx] at hwt ⊢
  cases w with
  | zero => rfl
  | succ w => simp at hwt

/-- A task a worker runs while the `on_connect` of `c` has not been taken is no task of `c`'s
but its `on_disconnect`. -/
theorem Inv.not_own_task (h : s.Inv) {t : Task} (ht : t ∈ s.server.threadPool.running)
    (hc : ∀ sk, Task.onConnect c sk ∉ s.server.threadPool.started) :
    (∀ sk, t ≠ .onConnect c sk) ∧ ∀ m, t ≠ .onMessage c m := by
  have hst := h.running_started t ht
  refine ⟨fun sk e => hc sk (e ▸ hst), fun m e => ?_⟩
  obtain ⟨pre, post, he⟩ := List.append_of_mem (e ▸ hst)
  obtain ⟨sk, hsk⟩ := h.started_connect_first c m pre post he
  exact hc sk (he ▸ List.mem_append_left _ hsk)

/-- What a worker runs when it returns from a task that is neither the `on_connect` nor a chunk
of client `c`, on a state where `c` is unwelcomed, leaves it without room and name and writes
nothing to it. -/
theorem Inv.finishTask_unwelcomed (h : s.Inv) (hu : s.Unwelcomed c) {w : Nat} {t : Task}
    (hwt : s.server.threadPool.workers[w]? = some (some t)) (hconn : ∀ sk, t ≠ .onConnect c sk)
    (hmsg : ∀ m, t ≠ .onMessage c m) (clk : Clock)
    (hi' : (s.finishTask localTime w clk t).1.chatRooms.Inv) :
    (s.finishTask localTime w clk t).1.chatRooms.clientRooms.find? c = none ∧
      (s.finishTask localTime w clk t).1.clientNames.find? c = none ∧
      ∀ m, Effect.send c m ∉ (s.finishTask localTime w clk t).2 := by
  unfold System.finishTask at hi' ⊢
  cases hk : s.paused.find? w with
  | none =>
    rw [hk] at hi'
    exact runTask_unwelcomed localTime h.rooms hu.room hu.name s.server clk hconn hmsg hi'
  | some k =>
    obtain ⟨t', hw', hfit⟩ := h.paused_fits w k hk
    rw [hwt] at hw'
    cases hw'
    cases t with
    | onConnect d sk => exact resume_unwelcomed h.rooms hu.room hu.name (fun e => hconn sk (by rw [show d = c from e.symm])) k
    | onMessage d m => exact resume_unwelcomed h.rooms hu.room hu.name (fun e => hmsg m (by rw [show d = c from e.symm])) k
    | onDisconnect d =>
      -- only `OnDisconnect` stops in an `on_disconnect`, and its rest is harmless to any client
      cases k with
      | releasing name room => exact releasing_unwelcomed h.rooms hu.room hu.name d name room
      | _ => exact hfit.elim

/-- **One step keeps a client unwelcomed while its `on_connect` has not been taken, or runs**,
with one worker. -/
theorem Inv.unwelcomed_step (h : s.Inv) (hw : s.server.threadPool.workers.length = 1)
    (hq : s.Connecting c → s.Unwelcomed c) {a : Action} (hs : s.step localTime a = some s') :
    s'.Connecting c → s'.Unwelcomed c := by
  intro hc
  obtain ⟨-, hcase⟩ := step_cases hs
  rcases hcase with ⟨sock, peer, assoc, -, -, -, rfl⟩ | ⟨sock, rp, now, -, -, rfl⟩ |
    ⟨i, io, r, rp, now, -, -, -, rfl⟩ | ⟨w, p, hp, rfl⟩ | ⟨w, clk, t, a, k, -, -, -, hb, rfl⟩ |
    ⟨w, clk, sent, t, p, hp, -, rfl⟩ | ⟨now, -, rfl⟩ | rfl | ⟨-, -, rfl⟩ | ⟨-, rfl⟩
  · -- `accept()`: nothing posted
    have hx := (IOCPServer.extends_acceptSocket s.server sock peer assoc).1
    exact (hq (hc.of_extends (s := s) (hx ▸ .refl _))).frame rfl rfl fun _ hio =>
      .inl (by rwa [IOCPServer.acceptSocket_pending] at hio)
  · -- the rest of `HandleAccept`: a read at most
    have hx := (IOCPServer.extends_handleAccept s.server sock rp now).1
    exact (hq (hc.of_extends (s := s) hx)).frame rfl rfl
      fun _ hio => IOCPServer.mem_pending_handleAccept hio
  · -- a completion: a read at most
    have hx := (IOCPServer.extends_complete { s.server with pending := s.server.pending.eraseIdx i }
      io r rp now).1
    refine (hq (hc.of_extends (s := s) hx)).frame rfl rfl fun _ hio => ?_
    exact (IOCPServer.mem_pending_complete hio).imp_left List.mem_of_mem_eraseIdx
  · -- take: the task taken is the front one
    obtain ⟨t, ts, -, htasks, rfl⟩ := ThreadPool.take_eq hp
    refine (hq ?_).frame rfl rfl fun _ hio => .inl hio
    rcases hc with hc | ⟨sk, hsk⟩
    · exact .inl fun sk hsk => hc sk (List.mem_append_left _ hsk)
    · rcases mem_running_set hsk with e | hsk
      · cases e
        exact .inl (h.not_started_of_queued (htasks ▸ List.mem_cons_self _ _))
      · exact .inr ⟨sk, hsk⟩
  · -- a worker stops in its handler: the names are kept, a client at most leaves its room,
    -- nothing is posted
    have hu := hq hc
    obtain ⟨hrooms, hnames, -⟩ := beginTask_stopped localTime hb
    have hroom : a.chatRooms.clientRooms.find? c = s.app.chatRooms.clientRooms.find? c := by
      rcases hrooms with hr | ⟨d, -, hr⟩
      · rw [hr]
      · rw [hr, ChatRoomManager.leaveRoom_clientRooms, hu.room]; split <;> rfl
    exact hu.frame hroom (congrArg (fun n => n.find? c) hnames) fun _ hio => .inl hio
  · -- a worker returns: from a task of another client, or its `on_disconnect`
    obtain ⟨-, hst, -, -⟩ := ThreadPool.history_finish hp
    have hwt := (ThreadPool.finish_eq hp).1
    have hx := (IOCPServer.extends_applyAll { s.server with threadPool := p }
      (s.finishTask localTime w clk t).2 sent).1
    have hnc : ∀ sk, Task.onConnect c sk ∉ s.server.threadPool.started := by
      rcases hc with hc | ⟨sk, hsk⟩
      · exact fun sk hsk => hc sk ((hx.started.trans hst).symm ▸ hsk)
      · have hsk : Task.onConnect c sk ∈ p.running := by
          rwa [ThreadPool.running, ← hx.workers]
        rw [running_finish_one hw hp] at hsk
        cases hsk
    have hu := hq (.inl hnc)
    obtain ⟨hconn, hmsg⟩ := h.not_own_task (mem_running hwt) hnc
    obtain ⟨hroom, hname, hsend⟩ := h.finishTask_unwelcomed hu hwt hconn hmsg clk (h.step hs).rooms
    refine ⟨hroom, hname, fun io hio hioc => ?_⟩
    rcases IOCPServer.mem_pending_applyAll hio with hio | ⟨d, m, sock, hm, rfl⟩
    · exact hu.reads io hio hioc
    · exact absurd (hioc ▸ hm) (hsend m)
  · -- sweep: disconnections only
    have hx := (IOCPServer.extends_applyAll s.server (ChatServer.sweep s.app s.server now).2 []).1
    refine (hq (hc.of_extends (s := s) hx)).frame rfl rfl fun _ hio => ?_
    rcases IOCPServer.mem_pending_applyAll hio with hio | ⟨d, m, sock, hm, -⟩
    · exact .inl hio
    · simp [ChatServer.sweep] at hm
  · -- stop
    have hx := (IOCPServer.extends_stop s.server).1
    refine (hq (hc.of_extends (s := s) (hx ▸ .refl _))).frame rfl rfl fun _ hio => ?_
    unfold IOCPServer.stop at hio
    split at hio <;> exact .inl hio
  · -- the teardown
    exact (hq hc).frame rfl rfl fun _ hio => .inl hio
  · -- a crash
    exact (hq hc).frame rfl rfl fun _ hio => .inl hio

theorem unwelcomed_init (lt : Int → Tm) (conn : CMConfig) (poolSize processors : Nat)
    (fs : FileSystem) (wall : Int) (c : Int) : (init lt conn poolSize processors fs wall).Unwelcomed c where
  room := by simp [init, ChatRoomManager.new]
  name := rfl
  reads := by simp [init, IOCPServer.start]

/-- **In every run with one worker, a client is unwelcomed until its `on_connect` returns.** -/
theorem Inv.unwelcomed_run (h : s.Inv) (hw : s.server.threadPool.workers.length = 1)
    (hq : s.Connecting c → s.Unwelcomed c) {acts : List Action}
    (hr : s.run localTime acts = some s') : s'.Connecting c → s'.Unwelcomed c :=
  (run_preserves (P := fun s => s.Inv ∧ s.server.threadPool.workers.length = 1 ∧
      (s.Connecting c → s.Unwelcomed c))
    (fun hs ⟨h, hw, hq⟩ => ⟨h.step hs, (step_grows hs).workers.trans hw, h.unwelcomed_step hw hq hs⟩)
    hr ⟨h, hw, hq⟩).2.2

/-- The write `PostWrite` builds for a message that fits in `MAX_LEN` holds the message. -/
theorem writeOp_of_fits {c : Int} {sock : Socket} {m : String} (hm : m.length ≤ maxLen) :
    (IOCPServer.writeOp c sock m m.length).buffer = m ∧
      (IOCPServer.writeOp c sock m m.length).wsaBufLen = m.length := by
  have hm' : m.data.length ≤ maxLen := hm
  have hmin : (min (m.data.length : Int) maxLen).toNat = m.data.length := by omega
  exact ⟨show (⟨m.data.take (min (m.data.length : Int) maxLen).toNat⟩ : String) = m by
    rw [hmin, List.take_length], rfl⟩

/-- The worker running the `on_connect` of `c` writes, when it returns, only the welcome, and
only to `c`: from where `HandleConnect` stopped, or the whole handler. -/
theorem Inv.finishTask_connect_sends (h : s.Inv) {w : Nat} {sk : Socket}
    (hwt : s.server.threadPool.workers[w]? = some (some (.onConnect c sk))) {clk : Clock}
    {x : Int} {m : String} (hm : Effect.send x m ∈ (s.finishTask localTime w clk (.onConnect c sk)).2) :
    x = c ∧ m = welcome := by
  unfold System.finishTask at hm
  cases hk : s.paused.find? w with
  | none =>
    rw [hk] at hm
    exact handleConnect_sends hm
  | some k =>
    rw [hk] at hm
    obtain ⟨t', hw', hfit⟩ := h.paused_fits w k hk
    rw [hwt] at hw'
    cases hw'
    cases k with
    | admitted ip => exact connectAdmitted_sends hm
    | _ => exact hfit.elim

/-- The step that finishes the `on_connect` of an unwelcomed client posts, for it, at most the
welcome, whatever the outcomes of its `WSASend`s. -/
theorem Unwelcomed.finish_connect (h : s.Inv) (hu : s.Unwelcomed c) {w : Nat} {sk : Socket}
    (hwt : s.server.threadPool.workers[w]? = some (some (.onConnect c sk))) {clk : Clock}
    {sent : List Bool} (hs : s.step localTime (.finish w clk sent) = some s') :
    ∀ io ∈ s'.server.pending, io.clientId = c → io.operation = .write →
      io.buffer = welcome ∧ io.wsaBufLen = welcome.length := by
  have hf : s.server.threadPool.finish w = some (.onConnect c sk,
      { s.server.threadPool with workers := s.server.threadPool.workers.set w none }) := by
    simp [ThreadPool.finish, hwt]
  obtain ⟨hcr, -⟩ := step_cases hs
  intro io hio hc hop
  cases htd : s.tornDown
  · rw [step_finish hcr htd hf] at hs
    obtain rfl := Option.some.inj hs
    rcases IOCPServer.mem_pending_applyAll hio with hio | ⟨d, m, sock, hm, rfl⟩
    · rw [hu.reads io hio hc] at hop; cases hop
    · obtain ⟨-, rfl⟩ := h.finishTask_connect_sends hwt hm
      exact writeOp_of_fits (by decide)
  · -- after the teardown the process crashes
    simp only [step, hcr, htd, hf, Option.map_some', if_true, Bool.false_eq_true, if_false] at hs
    obtain rfl := Option.some.inj hs
    rw [hu.reads io hio hc] at hop; cases hop

/-- A client connects, and the worker takes its `on_connect`. -/
def connectTaken : List Action := [.accept 1 ⟨"10.0.0.1", 5000⟩ true, .register true 0, .take 0]

end System

end ChatServer
