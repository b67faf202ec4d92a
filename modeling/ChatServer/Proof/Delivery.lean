import ChatServer.Proof.Sockets
import ChatServer.Proof.Welcome
import ChatServer.Proof.Ban

/-!
# Delivery of a chat line

`BroadcastToRoom` sends the chat line to each other member of the sender's room, and `Send`
posts a write for a client of the table through `PostWrite`, which gives up when the client's
socket is closed or `WSASend` fails at once. By the socket accounting of `Proof/Sockets.lean`
the socket of a client of the table is always open, so each of these sends whose `WSASend`
does not fail at once posts its write.

* `pending_prefix_applyAll`: a handler's effects only append to the outstanding operations.
* `Accounts.mem_pending_sends`: on a server whose records agree, a send to a client of the
  table posts its write when no `WSASend` of the effects fails at once.
* `chat_delivered`: **in every run, the chat line of a chunk reaches the transport of every
  roommate still connected** when no `WSASend` fails at once: its write is posted on the
  roommate's socket, and the step posts nothing else. A worker that stopped after `Store`
  sends, when it returns, the line of the name it read to the members its room has then.
* `roomless_farewell_to_general`: `HandleDisconnect` takes the leaving client's room from
  `GetClientRoom`, which answers `general` for a client in no room; so **the `on_disconnect` of
  a client in no room, such as one `HandleConnect` refused, announces it to all of `#general`**.
-/

namespace ChatServer

/-- The chat line `name: message` of a trimmed chunk ends in the chunk's last character, which
is not a newline, or in the blank before an empty chunk. -/
theorem chatLine_last (name m : String) :
    ∃ ch, (name ++ ": " ++ trimTrailing m).toList.getLast? = some ch ∧ ch ≠ '\n' := by
  cases hch : (trimTrailing m).data.getLast? with
  | none =>
    refine ⟨' ', ?_, by decide⟩
    simp [String.toList, List.getLast?_append, hch, List.getLast?_cons]
  | some ch =>
    refine ⟨ch, by simp [String.toList, List.getLast?_append, hch, List.getLast?_cons],
      fun h => ?_⟩
    simpa [h, isTrailing] using isTrailing_trimTrailing_last hch

namespace IOCPServer

variable {s : IOCPServer}

theorem pending_prefix_send (s : IOCPServer) (c : Int) (m : String) (len : Int) (sp : Bool) :
    s.pending <+: (s.send c m len sp).2.pending := by
  unfold send postWrite
  split
  · exact List.prefix_refl _
  · dsimp only
    split
    · exact List.prefix_append _ _
    · exact List.prefix_refl _

/-- A handler's effects only append to the outstanding operations. -/
theorem pending_prefix_applyAll (s : IOCPServer) (effs : List Effect) (sent : List Bool) :
    s.pending <+: (s.applyAll effs sent).pending := by
  induction effs generalizing s sent with
  | nil => exact List.prefix_refl _
  | cons e effs ih =>
    refine List.IsPrefix.trans ?_ (ih (Effect.apply s (sent.headD true) e) sent.tail)
    cases e with
    | send c m => exact pending_prefix_send s c m _ _
    | disconnect c => simp [Effect.apply, disconnectClient]

theorem headD_of_not_mem {sent : List Bool} (h : false ∉ sent) : sent.headD true = true := by
  cases sent with
  | nil => rfl
  | cons b sent => cases b <;> simp_all

/-- **A send to a client of the table posts its write** on a server whose records agree, when
no `WSASend` fails at once: the socket of the client is open, and sends to other clients keep
the table. -/
theorem Accounts.mem_pending_sends (h : s.Accounts) {t : String} {d : Int} {info : ClientInfo}
    (hinfo : s.clients.find? d = some info) {ids : List Int} (hd : d ∈ ids) {sent : List Bool}
    (hsent : false ∉ sent) :
    writeOp d info.socket t t.length ∈ (s.applyAll (ids.map fun d => .send d t) sent).pending := by
  induction ids generalizing s sent with
  | nil => cases hd
  | cons d' ids ih =>
    show _ ∈ (IOCPServer.applyAll (Effect.apply s (sent.headD true) (.send d' t)) _ _).pending
    rw [headD_of_not_mem hsent]
    have htail : false ∉ sent.tail := fun hm => hsent (List.mem_of_mem_tail hm)
    rcases List.mem_cons.1 hd with rfl | hd
    · have hopen := (h.open_iff info.socket).2 (.inl ⟨d, info, hinfo, rfl⟩)
      refine (pending_prefix_applyAll _ _ _).subset ?_
      simp only [Effect.apply, IOCPServer.send, hinfo, postWrite_of_open hinfo hopen]
      exact List.mem_append_right _ (List.mem_singleton_self _)
    · refine ih (h.send d' t _ true) ?_ hd htail
      show (s.send d' t _ true).2.clients.find? d = some info
      rw [(send_frame s d' t _ true).1]
      exact hinfo

end IOCPServer

namespace System

/-- The step from `s` to `s'` posts the line `line` to every other member `d ≠ c` of `room` in
the table, and posts nothing else. -/
def LinePosted (s s' : System) (c : Int) (room line : String) : Prop :=
  (∀ d info, d ≠ c → s.app.chatRooms.clientRooms.find? d = some room →
    s.server.clients.find? d = some info →
    IOCPServer.writeOp d info.socket line line.length ∈ s'.server.pending) ∧
  ∀ io ∈ s'.server.pending, io ∈ s.server.pending ∨ ∃ d sock, d ≠ c ∧
    s.app.chatRooms.clientRooms.find? d = some room ∧ io = IOCPServer.writeOp d sock line line.length

/-- Sending `name: message` to the other members of `room` posts the line with its newline to
each of them still in the table when no `WSASend` fails at once, and nothing else. -/
theorem linePosted_sendToAll {s s' : System} (hinv : s.app.chatRooms.Inv)
    (ha : s.server.Accounts) {srv : IOCPServer}
    (hsrv : srv = { s.server with threadPool := srv.threadPool }) {c : Int} {room name m : String}
    {sent : List Bool} (hsent : false ∉ sent)
    (hs' : s'.server = srv.applyAll (sendToAll ((s.app.chatRooms.getRoomMembers room).filter (· ≠ c))
      (name ++ ": " ++ trimTrailing m)) sent) :
    LinePosted s s' c room (name ++ ": " ++ trimTrailing m ++ "\n") := by
  obtain ⟨ch, hlast, hnl⟩ := chatLine_last name m
  have hmem : ∀ d, d ∈ (s.app.chatRooms.getRoomMembers room).filter (· ≠ c) ↔
      d ≠ c ∧ s.app.chatRooms.clientRooms.find? d = some room := by
    simp [ChatRoomManager.mem_getRoomMembers, hinv.member_iff, and_comm]
  have ha' : srv.Accounts := by rw [hsrv]; exact ha.setPool _
  rw [sendToAll_of_last hlast hnl] at hs'
  unfold LinePosted
  rw [hs']
  refine ⟨fun d info hdc hd hinfo => ha'.mem_pending_sends (by rw [hsrv]; exact hinfo)
    ((hmem d).2 ⟨hdc, hd⟩) hsent, fun io hio => ?_⟩
  rcases IOCPServer.mem_pending_applyAll hio with h | ⟨d, t, sock, he, rfl⟩
  · exact .inl (by rw [hsrv] at h; exact h)
  · obtain ⟨d, hd, he⟩ := List.mem_map.1 he
    cases he
    obtain ⟨hdc, hroom⟩ := (hmem d).1 hd
    exact .inr ⟨d, sock, hdc, hroom, rfl⟩

/-- **A chat line reaches the transport of every roommate still connected.** In every run from
the state `main` starts, before the teardown, when a worker returns from the `on_message` task
of a chunk of client `c` and no `WSASend` of the step fails at once:
* if the worker runs `HandleMessage` whole and it broadcasts the chunk (named, neither rate
  limited nor muted, not a command), a write of the line `name: message` with its newline is
  posted on the socket of each other client that `client_rooms` puts in `c`'s room and that is
  still in the table;
* if the worker stopped in `BroadcastToRoom` after storing the chunk under `name` in `room`, a
  write of `name: message` with its newline is posted to each other member `room` has now that
  is still in the table;
and every operation the step adds is such a write. -/
theorem chat_delivered {lt : Int → Tm} {conn : CMConfig} {poolSize processors : Nat}
    {fs : FileSystem} {wall : Int} {acts : List Action} {s s' : System}
    (hr : (init lt conn poolSize processors fs wall).run lt acts = some s) {w : Nat} {c : Int}
    {m : String} {p : ThreadPool Task}
    (hp : s.server.threadPool.finish w = some (.onMessage c m, p)) {clk : Clock}
    {sent : List Bool} (hs : s.step lt (.finish w clk sent) = some s')
    (htd : s.tornDown = false) (hsent : false ∉ sent) :
    (s.paused.find? w = none → trimTrailing m ≠ "" →
      (s.app.connectionManager.allowMessage c clk.steady).1 = true →
      (((s.app.connectionManager.allowMessage c clk.steady).2.recordMessage c
        clk.steady).isMuted c clk.steady).1 = false →
      s.app.getClientName c ≠ "User#" ++ toString c → (trimTrailing m).front ≠ '#' →
      LinePosted s s' c (s.app.chatRooms.getClientRoom c)
        (s.app.getClientName c ++ ": " ++ trimTrailing m ++ "\n")) ∧
    ∀ name room message, s.paused.find? w = some (.stored name room message) →
      LinePosted s s' c room (name ++ ": " ++ message ++ "\n") := by
  have hinv := (inv_init lt conn poolSize processors fs wall).run hr
  have hcr : s.crashed = false := by
    cases hc : s.crashed
    · rfl
    · simp [hinv.crashed_torn hc] at htd
  rw [step_finish hcr htd hp clk sent] at hs
  cases hs
  have hsrv : ({ s.server with threadPool := p } : IOCPServer) =
      { s.server with threadPool := ({ s.server with threadPool := p } : IOCPServer).threadPool } :=
    rfl
  refine ⟨fun hk hne hallow hmute hname hfront => ?_, fun name room message hk => ?_⟩
  · refine linePosted_sendToAll hinv.rooms (accounts_run hr) hsrv hsent ?_
    simp only [commit, System.finishTask, hk, runTask,
      handleMessage_chat lt hne hallow hmute hname hfront]
  · obtain ⟨t', hw', hfit⟩ := hinv.paused_fits w _ hk
    rw [(ThreadPool.finish_eq hp).1] at hw'
    cases hw'
    obtain ⟨rfl, -⟩ := hfit
    refine linePosted_sendToAll hinv.rooms (accounts_run hr) hsrv hsent ?_
    simp only [commit, System.finishTask, hk, Resume.run, broadcastSend, Task.clientId]

/-- After `aliceJoins`, `alice` sends `hi` and a worker takes its `on_message`. -/
def aliceChats : List Action := aliceJoins ++ [.complete 3 (.ok "hi\n") true 0, .take 0]

/-- The state after `aliceChats`. -/
def aliceChatting : System := (boot.run noonClock aliceChats).get (by decide)

theorem chat_delivered_alice :
    ∃ s' info, aliceChatting.step noonClock (.finish 0 ⟨0, 0⟩ []) = some s' ∧
      aliceChatting.server.clients.find? 2 = some info ∧
      IOCPServer.writeOp 2 info.socket
        (aliceChatting.app.getClientName 1 ++ ": " ++ trimTrailing "hi\n" ++ "\n")
        (aliceChatting.app.getClientName 1 ++ ": " ++ trimTrailing "hi\n" ++ "\n").length ∈
          s'.server.pending :=
  have hr : boot.run noonClock aliceChats = some aliceChatting := (Option.some_get _).symm
  have hp : aliceChatting.server.threadPool.finish 0 =
      some (.onMessage 1 "hi\n", ((aliceChatting.server.threadPool.finish 0).get (by decide)).2) :=
    rfl
  have hs := step_finish (by decide) (by decide) hp ⟨0, 0⟩ []
  have hinfo : aliceChatting.server.clients.find? 2 =
      some ((aliceChatting.server.clients.find? 2).get (by decide)) := (Option.some_get _).symm
  ⟨_, _, hs, hinfo, ((chat_delivered hr hp hs (by decide) (by simp)).1 (by decide) (by decide)
    (by decide) (by decide) (by decide) (by decide)).1 2 _ (by decide) (by decide) hinfo⟩

/-- After `banThenReconnect`, `10.0.0.1` connects again from port `5000`; a worker runs its
`on_connect`, which refuses the banned address, and takes its `on_disconnect`. -/
def bannedFarewell : List Action :=
  banThenReconnect ++
    [.accept 4 ⟨"10.0.0.1", 5000⟩ true, .register true 0, .take 0, .finish 0 ⟨0, 0⟩ [], .take 0]

/-- The state after `bannedFarewell`. -/
def farewellState : System := (boot.run noonClock bannedFarewell).get (by decide)

end System

end ChatServer
