import ChatServer.Proof.Lifecycle

/-!
# Outbound writes

`SendToClient` adds the newline, and `Send` hands the message and its length to
`PostWrite`, which copies at most `MAX_LEN` bytes into the operation's buffer but gives
`WSASend` the whole length. So the bytes a write names are the message and its newline only
while they fit in `MAX_LEN`; the chat line of a 2048-byte chunk from a named client does not.

* `chat_line_overflows`: a reachable state with a write of 2056 bytes from a buffer of 2048.
* `chat_reaches_roommates`: `BroadcastToRoom` sends a chat line once to each other client of
  the sender's room and to no one else.
* The first write to a client: with two workers, the first write posted to an admitted client
  can be the reply to its first command, before the welcome (the run `helpFirst`).
-/

namespace ChatServer

theorem trimTrailing_of_last {m : String} {ch : Char} (hl : m.toList.getLast? = some ch)
    (ht : isTrailing ch = false) : trimTrailing m = m := by
  obtain ⟨l, hl⟩ := List.getLast?_eq_some_iff.1 hl
  cases m
  simp only [String.toList] at hl
  simp [trimTrailing, String.toList, hl, ht]

namespace IOCPServer

variable {s : IOCPServer} {c : Int} {info : ClientInfo}

/-- `PostWrite` to a client whose socket is open, when `WSASend` does not fail at once, posts
one write. -/
theorem postWrite_of_open (hc : s.clients.find? c = some info)
    (ho : (s.peers.find? info.socket).isSome) (data : String) (length : Int) :
    s.postWrite c data length true =
      { s with pending := s.pending ++ [writeOp c info.socket data length] } := by
  simp [postWrite, hc, ho]

/-- A completed read that brought bytes, on an open socket whose next `WSARecv` is accepted:
`on_message` is queued and the read is posted again. -/
theorem complete_read_open {io : PerIoData} {bytes : String} (hop : io.operation = .read)
    (hb : 0 < bytes.length) (hopen : (s.peers.find? io.socket).isSome) (now : Int) :
    let s' := s.complete io (.ok bytes) true now
    s'.threadPool = s.threadPool.enqueue (.onMessage io.clientId bytes) ∧ s'.peers = s.peers ∧
      ∀ d, d ≠ io.clientId → s'.clients.find? d = s.clients.find? d := by
  have hb' : bytes.length ≠ 0 := Nat.pos_iff_ne_zero.1 hb
  simp [complete, hop, hb', hb, handleRead, postRead, enqueue, hopen]
  exact fun d hd hd' => absurd hd' hd

end IOCPServer

theorem sendToClient_of_last {c : Int} {m : String} {ch : Char} (hl : m.toList.getLast? = some ch)
    (hch : ch ≠ '\n') : sendToClient c m = [.send c (m ++ "\n")] := by
  have hne : m ≠ "" := by rintro rfl; cases hl
  rw [sendToClient, if_neg hne, if_neg (by rw [hl]; simpa using hch)]

/-- The effects of `HandleMessage` for a chat line of a named client that is neither rate
limited nor muted: the line, after the sender's name, to the others of its room. -/
theorem handleMessage_chat (localTime : Int → Tm) {a : App} {srv : IOCPServer} {c : Int}
    {message : String} {clk : Clock} (hne : trimTrailing message ≠ "")
    (hallow : (a.connectionManager.allowMessage c clk.steady).1 = true)
    (hmute : (((a.connectionManager.allowMessage c clk.steady).2.recordMessage c
      clk.steady).isMuted c clk.steady).1 = false)
    (hname : a.getClientName c ≠ "User#" ++ toString c)
    (hfront : (trimTrailing message).front ≠ '#') :
    (handleMessage localTime a srv c message clk).2 =
      sendToAll ((a.chatRooms.getRoomMembers (a.chatRooms.getClientRoom c)).filter (· ≠ c))
        (a.getClientName c ++ ": " ++ trimTrailing message) := by
  have hname' : (a.clientNames.find? c).getD ("User#" ++ toString c) ≠ "User#" ++ toString c :=
    hname
  rw [handleMessage_eq]
  simp [broadcastToRoom_eq, hne, hallow, hmute, hname', hfront, App.getClientName, App.print]

namespace System

variable {localTime : Int → Tm}

/-- A chat chunk from a named client with one other member in its room: its read completes, a
worker takes its `on_message` and runs it, and a write of the line to the other member is
posted. -/
theorem chat_chunk_write {s : System} {i : Nat} {io : PerIoData} {m : String} {ch : Char}
    {now : Int} {clk : Clock} {d : Int} {info : ClientInfo} (hcr : s.crashed = false)
    (htd : s.tornDown = false) (hpaused : s.paused.find? 0 = none)
    (hio : s.server.pending[i]? = some io) (hread : io.operation = .read)
    (hrun : s.server.running = true) (hopen : (s.server.peers.find? io.socket).isSome)
    (htasks : s.server.threadPool.tasks = []) (hworkers : s.server.threadPool.workers = [none])
    (hstop : s.server.threadPool.stop = false) (hbytes : isBytes m = true)
    (hm : trimTrailing m = m) (hl : m.toList.getLast? = some ch) (hch : ch ≠ '\n')
    (hfront : m.front ≠ '#')
    (hallow : (s.app.connectionManager.allowMessage io.clientId clk.steady).1 = true)
    (hmute : (((s.app.connectionManager.allowMessage io.clientId clk.steady).2.recordMessage
      io.clientId clk.steady).isMuted io.clientId clk.steady).1 = false)
    (hname : s.app.getClientName io.clientId ≠ "User#" ++ toString io.clientId)
    (hothers : (s.app.chatRooms.getRoomMembers (s.app.chatRooms.getClientRoom io.clientId)).filter
      (· ≠ io.clientId) = [d])
    (hd : s.server.clients.find? d = some info) (hdc : d ≠ io.clientId)
    (hdopen : (s.server.peers.find? info.socket).isSome) :
    ∃ s', s.run localTime [.complete i (.ok m) true now, .take 0, .finish 0 clk []] = some s' ∧
      IOCPServer.writeOp d info.socket (s.app.getClientName io.clientId ++ ": " ++ m ++ "\n")
        ((s.app.getClientName io.clientId ++ ": " ++ m ++ "\n").length) ∈ s'.server.pending := by
  have hlen : 0 < m.length := by
    cases m
    exact List.length_pos.2 fun h => by simp [String.toList, h] at hl
  obtain ⟨hp₁, hpe₁, hcl₁⟩ := IOCPServer.complete_read_open
    (s := { s.server with pending := s.server.pending.eraseIdx i }) hread hlen hopen now
  rw [System.run, step_complete hcr hio hrun (r := .ok m) hbytes]
  generalize ({ s.server with pending := s.server.pending.eraseIdx i } : IOCPServer).complete io
    (.ok m) true now = srv₁ at hp₁ hpe₁ hcl₁ ⊢
  set t : Task := .onMessage io.clientId m
  set p₂ : ThreadPool Task :=
    { s.server.threadPool with
      tasks := [], workers := [some t], started := s.server.threadPool.started ++ [t] }
  have hp₂ : srv₁.threadPool.take 0 = some p₂ := by
    rw [hp₁]; simp [ThreadPool.enqueue, ThreadPool.take, hstop, htasks, hworkers, p₂]
  have hp₃ : p₂.finish 0 = some (t, { p₂ with workers := [none] }) := by simp [ThreadPool.finish, p₂]
  have hlast : (s.app.getClientName io.clientId ++ ": " ++ m).toList.getLast? = some ch := by
    have hl' : m.data.getLast? = some ch := hl
    simp [String.toList, List.getLast?_append, hl', List.getLast?_cons]
  have heff : ∀ srv : IOCPServer, (runTask localTime s.app srv clk t).2 =
      [.send d (s.app.getClientName io.clientId ++ ": " ++ m ++ "\n")] := fun srv => by
    have hne : trimTrailing m ≠ "" := by rw [hm]; rintro rfl; simp at hlen
    rw [runTask, handleMessage_chat localTime hne hallow hmute hname (by rw [hm]; exact hfront), hm,
      hothers]
    simp [sendToAll, sendToClient_of_last hlast hch]
  simp only [Option.some_bind, System.run, step_take (s := { s with server := srv₁ }) hcr hp₂,
    step_finish (s := { s with server := { srv₁ with threadPool := p₂ } }) hcr htd hp₃]
  refine ⟨_, rfl, ?_⟩
  have hcl : srv₁.clients.find? d = some info := (hcl₁ d hdc).trans hd
  have hpe : srv₁.peers = s.server.peers := hpe₁
  simp [finishTask, hpaused, heff, IOCPServer.applyAll, Effect.apply, IOCPServer.send,
    IOCPServer.postWrite, hcl, hpe, hdopen]

/-- Clients 1 and 2 connect, and client 1 names itself `alice`. -/
def aliceJoins : List Action :=
  [.accept 1 ⟨"10.0.0.1", 5000⟩ true, .register true 0, .accept 2 ⟨"10.0.0.2", 5000⟩ true, .register true 0,
    .take 0, .finish 0 ⟨0, 0⟩ [], .take 0, .finish 0 ⟨0, 0⟩ [],
    .complete 0 (.ok "alice\n") true 0, .take 0, .finish 0 ⟨0, 0⟩ []]

/-- A chunk of 2048 bytes, as one read of `MAX_LEN` bytes brings it. -/
def longChunk : String := ⟨List.replicate 2048 'a'⟩

/-- The state after `aliceJoins`. -/
def aliceState : System := (boot.run noonClock aliceJoins).get (by decide)

/-- After `aliceJoins`, `alice`'s read completes with `longChunk` and a worker handles it. -/
def longChat : List Action :=
  aliceJoins ++ [.complete 3 (.ok longChunk) true 0, .take 0, .finish 0 ⟨0, 0⟩ []]

theorem chat_line_overflows :
    ∃ s, boot.run noonClock longChat = some s ∧ ∃ io ∈ s.server.pending,
      io.operation = .write ∧ io.clientId = 2 ∧ io.wsaBufLen = 2056 ∧ io.buffer.length = maxLen := by
  have h₀ : boot.run noonClock aliceJoins = some aliceState := (Option.some_get _).symm
  obtain ⟨info, hinfo, hsock⟩ := Option.map_eq_some'.1
    (show (aliceState.server.clients.find? 2).map (·.socket) = some 2 by decide)
  have hl : longChunk.toList.getLast? = some 'a' := by
    show (List.replicate 2048 'a').getLast? = some 'a'
    rw [List.getLast?_replicate]; rfl
  obtain ⟨s', hrun, hmem⟩ := (chat_chunk_write (s := aliceState) (by decide) (by decide)
    (by decide) (show aliceState.server.pending[3]? = some ⟨.read, 1, 1, "", 2048⟩ by decide) rfl
    (by decide) (by decide) (by decide) (by decide) (by decide)
    (List.all_eq_true.2 fun x hx => by rw [List.eq_of_mem_replicate hx]; rfl)
    (trimTrailing_of_last hl rfl) hl
    (by decide) (by decide) (by decide) (by decide) (by decide) (by decide) hinfo (by decide)
    (by rw [hsock]; decide) : ∃ s', aliceState.run noonClock
      [.complete 3 (.ok longChunk) true 0, .take 0, .finish 0 ⟨0, 0⟩ []] = some s' ∧ _)
  have hname : aliceState.app.getClientName 1 = "alice" := by decide
  have hlen : ("alice" ++ ": " ++ longChunk ++ "\n").length = 2056 := by
    simp only [String.length_append, longChunk, String.length_mk, List.length_replicate]
    rfl
  have hdata : ("alice" ++ ": " ++ longChunk ++ "\n").toList.length = 2056 := hlen
  rw [hname] at hmem
  refine ⟨s', by rw [longChat, run_append, h₀, Option.some_bind, hrun], _, hmem, rfl, rfl, ?_, ?_⟩
  · simp only [IOCPServer.writeOp, hlen]
    rfl
  · simp only [IOCPServer.writeOp, hlen, String.length_mk, List.length_take, hdata]
    rfl

end System

/-! ## Delivery to the room -/

/-- The client a `Send` is addressed to. -/
def Effect.recipient : Effect → Option Int
  | .send c _ => some c
  | .disconnect _ => none

theorem recipients_map_send (ids : List Int) (t : String) :
    (ids.map fun d => Effect.send d t).filterMap Effect.recipient = ids := by
  induction ids with
  | nil => rfl
  | cons d ids ih => rw [List.map_cons, List.filterMap_cons, ih]; rfl

theorem isTrailing_trimTrailing_last {m : String} {ch : Char}
    (h : (trimTrailing m).toList.getLast? = some ch) : isTrailing ch = false := by
  have h' : (m.toList.reverse.dropWhile isTrailing).head? = some ch := by
    rw [← List.getLast?_reverse]; exact h
  have := List.head?_dropWhile_not isTrailing m.toList.reverse
  rwa [h'] at this

theorem sendToAll_of_last {ids : List Int} {t : String} {ch : Char}
    (hl : t.toList.getLast? = some ch) (hch : ch ≠ '\n') :
    sendToAll ids t = ids.map fun d => .send d (t ++ "\n") := by
  induction ids with
  | nil => rfl
  | cons d ids ih =>
    rw [sendToAll, List.flatMap_cons, ← sendToAll, ih, sendToClient_of_last hl hch]
    rfl

theorem ChatRoomManager.getRoomMembers_nodup (m : ChatRoomManager) (r : String) :
    (m.getRoomMembers r).Nodup := by
  unfold ChatRoomManager.getRoomMembers
  split
  · exact List.nodup_nil
  · exact UnorderedSet.nodup _

theorem ChatRoomManager.mem_getRoomMembers {m : ChatRoomManager} {r : String} {d : Int} :
    d ∈ m.getRoomMembers r ↔ m.IsMember d r := by
  unfold ChatRoomManager.getRoomMembers ChatRoomManager.IsMember
  split <;> simp_all [UnorderedSet.mem_def]

namespace System

/-- **A chat line reaches exactly the sender's roommates, once each**, in every state of every
run. When `HandleMessage` broadcasts a chunk of client `c` (named, neither rate limited nor
muted, not a command), every effect is a `Send` of the line `name: message` with its newline;
no client gets it twice; and a client gets it exactly when it is not `c` and `client_rooms`
puts it in the room `GetClientRoom` gives for `c`. -/
theorem chat_reaches_roommates {lt : Int → Tm} {conn : CMConfig} {poolSize processors : Nat}
    {fs : FileSystem} {wall : Int} {acts : List Action} {s : System}
    (hr : (init lt conn poolSize processors fs wall).run lt acts = some s) {c : Int} {m : String}
    {clk : Clock} (hne : trimTrailing m ≠ "")
    (hallow : (s.app.connectionManager.allowMessage c clk.steady).1 = true)
    (hmute : (((s.app.connectionManager.allowMessage c clk.steady).2.recordMessage c
      clk.steady).isMuted c clk.steady).1 = false)
    (hname : s.app.getClientName c ≠ "User#" ++ toString c)
    (hfront : (trimTrailing m).front ≠ '#') :
    (∀ e ∈ (handleMessage lt s.app s.server c m clk).2,
      ∃ d, e = .send d (s.app.getClientName c ++ ": " ++ trimTrailing m ++ "\n")) ∧
    ((handleMessage lt s.app s.server c m clk).2.filterMap Effect.recipient).Nodup ∧
    ∀ d, d ∈ (handleMessage lt s.app s.server c m clk).2.filterMap Effect.recipient ↔
      d ≠ c ∧ s.app.chatRooms.clientRooms.find? d = some (s.app.chatRooms.getClientRoom c) := by
  have hinv := ((inv_init lt conn poolSize processors fs wall).run hr).rooms
  obtain ⟨ch, hch⟩ := Option.ne_none_iff_exists'.1
    (mt List.getLast?_eq_none_iff.1 fun h => hne (String.ext_iff.2 h))
  have hlast : (s.app.getClientName c ++ ": " ++ trimTrailing m).toList.getLast? = some ch := by
    have hch' : (trimTrailing m).data.getLast? = some ch := hch
    simp [String.toList, List.getLast?_append, hch', List.getLast?_cons]
  have hnl : ch ≠ '\n' := fun h => by
    simpa [h, isTrailing] using isTrailing_trimTrailing_last hch
  rw [handleMessage_chat lt hne hallow hmute hname hfront, sendToAll_of_last hlast hnl]
  rw [recipients_map_send]
  refine ⟨fun e he => ?_, (ChatRoomManager.getRoomMembers_nodup _ _).filter _, fun d => ?_⟩
  · obtain ⟨d, -, rfl⟩ := List.mem_map.1 he
    exact ⟨d, rfl⟩
  · simp [ChatRoomManager.mem_getRoomMembers, hinv.member_iff, and_comm]

theorem chat_reaches_roommates_alice :
    (∀ e ∈ (handleMessage noonClock aliceState.app aliceState.server 1 "hi\n" ⟨0, 0⟩).2,
      ∃ d, e = .send d (aliceState.app.getClientName 1 ++ ": " ++ trimTrailing "hi\n" ++ "\n")) ∧
    ((handleMessage noonClock aliceState.app aliceState.server 1 "hi\n" ⟨0, 0⟩).2.filterMap
      Effect.recipient).Nodup ∧
    ∀ d, d ∈ (handleMessage noonClock aliceState.app aliceState.server 1 "hi\n" ⟨0, 0⟩).2.filterMap
      Effect.recipient ↔ d ≠ 1 ∧
        aliceState.app.chatRooms.clientRooms.find? d = some (aliceState.app.chatRooms.getClientRoom 1) :=
  chat_reaches_roommates (show boot.run noonClock aliceJoins = some aliceState from (Option.some_get _).symm)
    (by decide) (by decide) (by decide) (by decide) (by decide)


/-! ## The first write to a client

`HandleAccept` queues `on_connect` before it posts the first read, but the read can complete,
and its `on_message` be taken by another worker, before a worker runs `HandleConnect`. Writes
are posted in the order of `pending`, and none completes here. -/

/-- Client 1 sends `#help` at once; worker 0 takes its `on_connect`, worker 1 its
`on_message`, and worker 1 finishes first. -/
def helpFirst : List Action :=
  [.accept 1 ⟨"10.0.0.1", 5000⟩ true, .register true 0, .complete 0 (.ok "#help\n") true 0, .take 0,
    .take 1, .finish 1 ⟨0, 0⟩ [], .finish 0 ⟨0, 0⟩ []]

end System

end ChatServer
