import ChatServer.Spec.Server

/-!
# Invariants of the transport

What every function of `IOCPServer` keeps, whatever the completions and whatever a handler
asks of it, provided a handler only disconnects ids the transport has handed out. The pool's
`history` is every task taken or queued, in the order the workers take them.

* `IOCPServer.Inv`: ids are below `next_client_id`; a registered client has no
  `on_disconnect` in the history, and (while the server runs) a client that is no longer
  registered has one; every `on_message` of a client is preceded by its `on_connect`; and the
  `on_message` tasks of a client carry the chunks `HandleRead` received for it, in order.
* `Inv.acceptSocket`, `Inv.handleAccept`, `Inv.complete`, `Inv.applyAll`, `Inv.stop`: the
  steps of the accept thread (the second one while the pool is not stopped, also after
  `Stop`), of the completion workers, of a handler's effects, and `Stop` keep it.
* `Extends`: every function only appends to the history, and leaves the workers alone.
-/

namespace ChatServer

/-- The chunk a task carries for client `c`. -/
def Task.messageOf (c : Int) : Task → Option String
  | .onMessage c' m => if c' = c then some m else none
  | _ => none

/-- The client a task connects. -/
def Task.connectId : Task → Option Int
  | .onConnect c _ => some c
  | _ => none

/-- The chunks received for client `c`. -/
def receivedOf (c : Int) (l : List (Int × String)) : List String :=
  l.filterMap fun p => if p.1 = c then some p.2 else none

/-- Every `on_message` of a client comes after an `on_connect` of that client. -/
def ConnectFirst (h : List Task) : Prop :=
  ∀ c m pre post, h = pre ++ .onMessage c m :: post → ∃ sk, .onConnect c sk ∈ pre

theorem ConnectFirst.append {h : List Task} (hh : ConnectFirst h) {t : Task}
    (ht : ∀ c m, t = .onMessage c m → ∃ sk, .onConnect c sk ∈ h) :
    ConnectFirst (h ++ [t]) := by
  intro c m pre post he
  rcases List.eq_nil_or_concat' post with rfl | ⟨L, b, rfl⟩
  · obtain ⟨rfl, ht'⟩ := List.append_inj' he rfl
    exact ht c m (List.singleton_inj.1 ht')
  · have he' : h ++ [t] = (pre ++ .onMessage c m :: L) ++ [b] := by simpa using he
    exact hh c m pre L (List.append_inj' he' rfl).1

/-- An effect a handler may ask: any `Send`, and `DisconnectClient` of an id handed out. -/
def Effect.Allowed (s : IOCPServer) : Effect → Prop
  | .send _ _ => True
  | .disconnect c => c < s.nextClientId

namespace IOCPServer

/-- The invariant of the transport. -/
structure Inv (s : IOCPServer) : Prop where
  stopped : s.threadPool.stop = true → s.running = false
  clients_lt : ∀ c, (s.clients.find? c).isSome → c < s.nextClientId
  info_id : ∀ c info, s.clients.find? c = some info → info.id = c
  pending_lt : ∀ io ∈ s.pending, io.clientId < s.nextClientId
  history_lt : ∀ t ∈ s.threadPool.history, t.clientId < s.nextClientId
  registered_live : ∀ c, (s.clients.find? c).isSome → .onDisconnect c ∉ s.threadPool.history
  accepted : s.running = true → ∀ c, 1 ≤ c → c < s.nextClientId →
    (s.clients.find? c).isSome ∨ .onDisconnect c ∈ s.threadPool.history
  connect_first : ConnectFirst s.threadPool.history
  pending_connected : ∀ io ∈ s.pending, ∃ sk, .onConnect io.clientId sk ∈ s.threadPool.history
  registered_connected : ∀ c, (s.clients.find? c).isSome →
    ∃ sk, .onConnect c sk ∈ s.threadPool.history
  messages : ∀ c, s.threadPool.history.filterMap (Task.messageOf c) = receivedOf c s.received
  connect_once : (s.threadPool.history.filterMap Task.connectId).Nodup

variable {s : IOCPServer}

theorem inv_start (p : ThreadPool Task) (h0 : p.history = []) (hs : p.stop = false) :
    (start p).Inv where
  stopped := by simp [start, hs]
  clients_lt := by simp [start]
  info_id := by simp [start]
  pending_lt := by simp [start]
  history_lt := by simp [start, h0]
  registered_live := by simp [start]
  accepted := by intro _ c h1 h2; simp only [start] at h2; omega
  connect_first := by simp only [start, h0]; intro c m pre post h; simp at h
  pending_connected := by simp [start]
  registered_connected := by simp [start]
  messages := by simp [start, h0, receivedOf]
  connect_once := by simp [start, h0]

theorem Inv.running_stop (h : s.Inv) (hr : s.running = true) : s.threadPool.stop = false := by
  cases hs : s.threadPool.stop
  · rfl
  · simp [h.stopped hs] at hr

/-- A change that keeps the id counter, the history and the received chunks, registers no one
(records keep their ids), posts nothing, and deregisters no one while the server runs. -/
theorem Inv.mono {s' : IOCPServer} (h : s.Inv) (hrun : s'.running = true → s.running = true)
    (hnext : s'.nextClientId = s.nextClientId)
    (hhist : s'.threadPool.history = s.threadPool.history)
    (hstop : s'.threadPool.stop = s.threadPool.stop) (hrecv : s'.received = s.received)
    (hcl : ∀ c info, s'.clients.find? c = some info →
      ∃ info', s.clients.find? c = some info' ∧ info'.id = info.id)
    (hkeep : s'.running = true → ∀ c, (s.clients.find? c).isSome → (s'.clients.find? c).isSome)
    (hpend : ∀ io ∈ s'.pending, io ∈ s.pending) : s'.Inv := by
  have hsome : ∀ c, (s'.clients.find? c).isSome → (s.clients.find? c).isSome := by
    intro c hc
    obtain ⟨info, hinfo⟩ := Option.isSome_iff_exists.1 hc
    obtain ⟨info', h', -⟩ := hcl c info hinfo
    simp [h']
  refine ⟨fun hs => ?_, fun c hc => hnext ▸ h.clients_lt c (hsome c hc), fun c info hc => ?_,
    fun io hio => hnext ▸ h.pending_lt io (hpend io hio),
    fun t ht => hnext ▸ h.history_lt t (hhist ▸ ht),
    fun c hc => hhist ▸ h.registered_live c (hsome c hc), fun hr c h1 h2 => ?_,
    hhist ▸ h.connect_first, fun io hio => hhist ▸ h.pending_connected io (hpend io hio),
    fun c hc => hhist ▸ h.registered_connected c (hsome c hc),
    fun c => hhist ▸ hrecv ▸ h.messages c, hhist ▸ h.connect_once⟩
  · cases hr : s'.running
    · rfl
    · exact absurd (hrun hr) (by simp [h.stopped (hstop ▸ hs)])
  · obtain ⟨info', h', hid⟩ := hcl c info hc
    exact hid ▸ h.info_id c info' h'
  · rcases h.accepted (hrun hr) c h1 (hnext ▸ h2) with h' | h'
    · exact .inl (hkeep hr c h')
    · exact .inr (hhist ▸ h')

/-- Only the open sockets, or the pool's queue with the same history, change. -/
theorem Inv.frame {s' : IOCPServer} (h : s.Inv) (hrun : s'.running = s.running)
    (hnext : s'.nextClientId = s.nextClientId)
    (hhist : s'.threadPool.history = s.threadPool.history)
    (hstop : s'.threadPool.stop = s.threadPool.stop) (hrecv : s'.received = s.received)
    (hcl : s'.clients = s.clients) (hpend : ∀ io ∈ s'.pending, io ∈ s.pending) : s'.Inv :=
  h.mono (fun hr => hrun ▸ hr) hnext hhist hstop hrecv (fun _ info hc => ⟨info, hcl ▸ hc, rfl⟩)
    (fun _ _ hc => hcl ▸ hc) hpend

theorem Inv.closeSocket (h : s.Inv) (sock : Socket) : (s.closeSocket sock).Inv :=
  h.frame rfl rfl rfl rfl rfl rfl fun _ => id

theorem Inv.setPeers (h : s.Inv) (peers : UnorderedMap Socket SockAddr) :
    ({ s with peers := peers }).Inv :=
  h.frame rfl rfl rfl rfl rfl rfl fun _ => id

theorem Inv.erasePending (h : s.Inv) (i : Nat) :
    ({ s with pending := s.pending.eraseIdx i }).Inv :=
  h.frame rfl rfl rfl rfl rfl rfl fun _ => List.mem_of_mem_eraseIdx

theorem Inv.setPool (h : s.Inv) {p : ThreadPool Task} (hh : p.history = s.threadPool.history)
    (hs : p.stop = s.threadPool.stop) : ({ s with threadPool := p }).Inv :=
  h.frame rfl rfl hh hs rfl rfl fun _ => id

theorem Inv.cleanupClient (h : s.Inv) {c : Int} (hc : c < s.nextClientId) :
    (s.cleanupClient c).Inv := by
  have hcl : ∀ c' info, (s.cleanupClient c).clients.find? c' = some info →
      ∃ info', s.clients.find? c' = some info' ∧ info'.id = info.id := by
    intro c' info hc'
    rw [cleanupClient_find?] at hc'
    split at hc'
    · simp at hc'
    · exact ⟨info, hc', rfl⟩
  cases hst : s.threadPool.stop
  case true =>
    -- a stopped pool queues nothing; the server is stopped too
    have hr := h.stopped hst
    exact h.mono (by simp [hr]) (by simp) (by simp [ThreadPool.history_enqueue, hst]) (by simp)
      (by simp) hcl (by simp [hr]) (by simp)
  case false =>
    have hh : (s.threadPool.enqueue (.onDisconnect c)).history =
        s.threadPool.history ++ [.onDisconnect c] := by
      simp [ThreadPool.history_enqueue, hst]
    have hfind : ∀ c', ((s.cleanupClient c).clients.find? c').isSome →
        c' ≠ c ∧ (s.clients.find? c').isSome := by
      intro c' hc'
      rw [cleanupClient_find?] at hc'
      split at hc'
      · simp at hc'
      · exact ⟨by assumption, hc'⟩
    exact
      { stopped := by simp [hst]
        clients_lt := fun c' hc' => by simpa using h.clients_lt c' (hfind c' hc').2
        info_id := fun c' info hc' => by
          obtain ⟨info', h', hid⟩ := hcl c' info hc'
          exact hid ▸ h.info_id c' info' h'
        pending_lt := by simpa using h.pending_lt
        history_lt := by simpa [hh, or_imp, forall_and, Task.clientId, hc] using h.history_lt
        registered_live := fun c' hc' => by
          obtain ⟨hne, hreg⟩ := hfind c' hc'
          simpa [hh, hne] using h.registered_live c' hreg
        accepted := fun hr c' h1 h2 => by
          simp only [cleanupClient_find?, cleanupClient_threadPool, hh, List.mem_append, List.mem_singleton,
            Task.onDisconnect.injEq]
          by_cases hce : c' = c
          · exact .inr (.inr hce)
          · simpa [hce] using h.accepted (by simpa using hr) c' h1 (by simpa using h2)
        connect_first := by simpa [hh] using h.connect_first.append (by simp)
        pending_connected := fun io hio => by
          simpa [hh] using h.pending_connected io (by simpa using hio)
        registered_connected := fun c' hc' => by
          simpa [hh] using h.registered_connected c' (hfind c' hc').2
        messages := fun c' => by simp [hh, h.messages c', Task.messageOf]
        connect_once := by simpa [hh, Task.connectId] using h.connect_once }

/-- Posting an operation of a client that has its `on_connect`. -/
theorem Inv.pushPending (h : s.Inv) {io : PerIoData} (hc : io.clientId < s.nextClientId)
    (hcon : ∃ sk, .onConnect io.clientId sk ∈ s.threadPool.history) :
    ({ s with pending := s.pending ++ [io] }).Inv :=
  { h with
    pending_lt := by
      simp only [List.mem_append, List.mem_singleton]
      rintro io' (h' | rfl)
      exacts [h.pending_lt io' h', hc]
    pending_connected := by
      simp only [List.mem_append, List.mem_singleton]
      rintro io' (h' | rfl)
      exacts [h.pending_connected io' h', hcon] }

theorem Inv.postRead (h : s.Inv) {io : PerIoData} (hc : io.clientId < s.nextClientId)
    (hcon : ∃ sk, .onConnect io.clientId sk ∈ s.threadPool.history) (recvPending : Bool) :
    (s.postRead io recvPending).Inv := by
  unfold IOCPServer.postRead
  split
  · exact h.pushPending hc hcon
  · exact h.cleanupClient hc

/-- Registering the next id and enqueuing its `on_connect`, on a pool that is not stopped. -/
theorem Inv.register (h : s.Inv) (hst : s.threadPool.stop = false) (sock : Socket)
    (info : ClientInfo) (hid : info.id = s.nextClientId) :
    (({ s with
      acceptor := none, nextClientId := s.nextClientId + 1
      clients := s.clients.set s.nextClientId info
      socketToId := s.socketToId.set sock s.nextClientId } : IOCPServer).enqueue
        (.onConnect s.nextClientId sock)).Inv := by
  set n := s.nextClientId
  set s' : IOCPServer := ({ s with
      acceptor := none, nextClientId := n + 1, clients := s.clients.set n info
      socketToId := s.socketToId.set sock n } : IOCPServer).enqueue (.onConnect n sock)
  have hh : s'.threadPool.history = s.threadPool.history ++ [.onConnect n sock] := by
    simp [s', enqueue, ThreadPool.history_enqueue, hst]
  have hcl : ∀ c, s'.clients.find? c = if c = n then some info else s.clients.find? c := by
    simp [s', enqueue]
  have hlive : .onDisconnect n ∉ s.threadPool.history := fun hm =>
    (lt_irrefl _) (h.history_lt _ hm)
  have hn : s'.nextClientId = n + 1 := rfl
  exact
    { stopped := fun hs => h.stopped (by simpa [s', enqueue] using hs)
      clients_lt := fun c hc => by
        rw [hcl] at hc
        split at hc
        · omega
        · have := h.clients_lt c hc; omega
      info_id := fun c info' hc => by
        rw [hcl] at hc
        split at hc
        · cases hc; subst c; exact hid
        · exact h.info_id c info' hc
      pending_lt := fun io hio => by have := h.pending_lt io hio; omega
      history_lt := fun t ht => by
        rw [hh, List.mem_append, List.mem_singleton] at ht
        rcases ht with ht | rfl
        · have := h.history_lt t ht; omega
        · show n < n + 1; omega
      registered_live := fun c hc => by
        rw [hcl] at hc
        rw [hh, List.mem_append, List.mem_singleton, not_or]
        split at hc
        · subst c; exact ⟨hlive, by simp⟩
        · exact ⟨h.registered_live c hc, by simp⟩
      accepted := fun hr c h1 h2 => by
        rw [hcl, hh, List.mem_append, List.mem_singleton]
        by_cases hc : c = n
        · simp [hc]
        · simp only [hc, if_false]
          exact (h.accepted hr c h1 (by omega)).imp id .inl
      connect_first := hh ▸ h.connect_first.append (by simp)
      pending_connected := fun io hio => by
        obtain ⟨sk, hsk⟩ := h.pending_connected io hio
        exact ⟨sk, by simp [hh, hsk]⟩
      registered_connected := fun c hc => by
        rw [hcl] at hc
        split at hc
        · subst c; exact ⟨sock, by simp [hh]⟩
        · obtain ⟨sk, hsk⟩ := h.registered_connected c hc
          exact ⟨sk, by simp [hh, hsk]⟩
      messages := fun c => by
        rw [hh, List.filterMap_append, h.messages c]; simp [Task.messageOf, s', enqueue]
      connect_once := by
        have hfresh : n ∉ s.threadPool.history.filterMap Task.connectId := fun hm => by
          obtain ⟨t, ht, hid⟩ := List.mem_filterMap.1 hm
          have := h.history_lt t ht
          cases t <;> simp only [Task.connectId, Option.some.injEq, reduceCtorEq] at hid
          subst hid; exact lt_irrefl _ this
        rw [hh, List.filterMap_append, List.nodup_append]
        exact ⟨h.connect_once, by simp [Task.connectId], by simpa [Task.connectId] using hfresh⟩ }

/-- `PostRead` removes at most the client of its operation, and registers no one. -/
theorem postRead_find? (s : IOCPServer) (io : PerIoData) (rp : Bool) {c : Int} {info : ClientInfo}
    (h : (s.postRead io rp).clients.find? c = some info) : s.clients.find? c = some info := by
  unfold IOCPServer.postRead at h
  split at h
  · exact h
  · rw [cleanupClient_find?] at h
    split at h
    · cases h
    · exact h

/-- The rest of `HandleAccept` registers the socket the accept thread holds under the next id,
and releases the socket. -/
theorem handleAccept_find? (s : IOCPServer) (sock : Socket) (rp : Bool) (now : Int) {c : Int}
    {info : ClientInfo} (h : (s.handleAccept sock rp now).clients.find? c = some info) :
    c = s.nextClientId ∧ info.socket = sock ∨ s.clients.find? c = some info := by
  have h' := postRead_find? _ _ _ h
  simp only [enqueue, UnorderedMap.find?_set] at h'
  split at h'
  · cases h'; exact .inl ⟨‹_›, rfl⟩
  · exact .inr h'

@[simp] theorem handleAccept_acceptor (s : IOCPServer) (sock : Socket) (rp : Bool) (now : Int) :
    (s.handleAccept sock rp now).acceptor = none := by
  simp only [handleAccept, IOCPServer.postRead]; split <;> simp [enqueue]

@[simp] theorem handleAccept_running (s : IOCPServer) (sock : Socket) (rp : Bool) (now : Int) :
    (s.handleAccept sock rp now).running = s.running := by
  simp only [handleAccept, IOCPServer.postRead]; split <;> simp [enqueue]

theorem Inv.acceptSocket (h : s.Inv) (sock : Socket) (peer : SockAddr) (associated : Bool) :
    (s.acceptSocket sock peer associated).Inv := by
  unfold IOCPServer.acceptSocket
  split
  · exact h.frame rfl rfl rfl rfl rfl rfl fun _ => id
  · exact (h.setPeers _).closeSocket _

theorem Inv.handleAccept (h : s.Inv) (hst : s.threadPool.stop = false) (sock : Socket)
    (recvPending : Bool) (now : Int) : (s.handleAccept sock recvPending now).Inv :=
  (h.register hst sock _ rfl).postRead (by show s.nextClientId < s.nextClientId + 1; omega)
    ⟨sock, by simp [enqueue, readOp, ThreadPool.history_enqueue, hst]⟩ _

/-- `HandleRead` appends the chunk to the history and to the received chunks alike. -/
theorem Inv.receive (h : s.Inv) (hr : s.running = true) {c : Int} (hc : c < s.nextClientId)
    (hcon : ∃ sk, .onConnect c sk ∈ s.threadPool.history) (bytes : String) :
    ({ s.enqueue (.onMessage c bytes) with received := s.received ++ [(c, bytes)] }).Inv := by
  set s' : IOCPServer :=
    { s.enqueue (.onMessage c bytes) with received := s.received ++ [(c, bytes)] }
  have hh : s'.threadPool.history = s.threadPool.history ++ [.onMessage c bytes] := by
    simp [s', enqueue, ThreadPool.history_enqueue, h.running_stop hr]
  exact
    { stopped := fun hs => h.stopped (by simpa [s', enqueue] using hs)
      clients_lt := h.clients_lt
      info_id := h.info_id
      pending_lt := h.pending_lt
      history_lt := fun t ht => by
        rw [hh, List.mem_append, List.mem_singleton] at ht
        rcases ht with ht | rfl
        exacts [h.history_lt t ht, hc]
      registered_live := fun c' hc' => by simpa [hh] using h.registered_live c' hc'
      accepted := fun _ c' h1 h2 => (h.accepted hr c' h1 h2).imp id fun h' => by simp [hh, h']
      connect_first := hh ▸ h.connect_first.append fun c' m he => by cases he; exact hcon
      pending_connected := fun io hio => by
        obtain ⟨sk, hsk⟩ := h.pending_connected io hio
        exact ⟨sk, by simp [hh, hsk]⟩
      registered_connected := fun c' hc' => by
        obtain ⟨sk, hsk⟩ := h.registered_connected c' hc'
        exact ⟨sk, by simp [hh, hsk]⟩
      messages := fun c' => by
        rw [hh]
        simp only [List.filterMap_append, h.messages c', receivedOf, List.filterMap_cons,
          List.filterMap_nil, Task.messageOf, s']
      connect_once := by simpa [hh, Task.connectId] using h.connect_once }

theorem Inv.handleRead (h : s.Inv) (hr : s.running = true) {io : PerIoData}
    (hc : io.clientId < s.nextClientId)
    (hcon : ∃ sk, .onConnect io.clientId sk ∈ s.threadPool.history)
    (bytes : String) (recvPending : Bool) (now : Int) :
    (s.handleRead io bytes recvPending now).Inv := by
  unfold IOCPServer.handleRead
  have h1 : ({ s with clients := s.clients.modify io.clientId fun info =>
      { info with lastActivity := now, messageCount := info.messageCount + 1 } } : IOCPServer).Inv :=
    h.mono id rfl rfl rfl rfl (fun c info hc => ?_) (fun _ c hc => ?_) fun _ => id
  · split
    · exact (h1.receive hr hc hcon bytes).postRead (by simpa [enqueue] using hc)
        (by obtain ⟨sk, hsk⟩ := hcon; exact ⟨sk, by simp [enqueue,
          ThreadPool.history_enqueue, h.running_stop hr, hsk]⟩) _
    · exact h1.postRead hc hcon _
  · simp only [UnorderedMap.find?_modify] at hc
    split at hc
    · rename_i hci
      subst hci
      obtain ⟨info', h', rfl⟩ := Option.map_eq_some'.1 hc
      exact ⟨info', h', rfl⟩
    · exact ⟨info, hc, rfl⟩
  · simp only [UnorderedMap.find?_modify]
    split
    · rename_i hci
      subst hci
      simpa using hc
    · exact hc

theorem Inv.complete (h : s.Inv) (hr : s.running = true) {io : PerIoData}
    (hc : io.clientId < s.nextClientId)
    (hcon : ∃ sk, .onConnect io.clientId sk ∈ s.threadPool.history)
    (r : Completion) (recvPending : Bool) (now : Int) : (s.complete io r recvPending now).Inv := by
  unfold IOCPServer.complete
  split
  · exact h.cleanupClient hc
  · split
    · exact h.cleanupClient hc
    · split
      · exact h.handleRead hr hc hcon _ _ _
      · exact h
      · exact h

theorem Inv.stop (h : s.Inv) : s.stop.Inv := by
  unfold IOCPServer.stop
  split
  · exact h
  · exact h.mono (by simp) rfl rfl rfl rfl (by simp) (by simp) fun _ => id

/-- `Send`, through `PostWrite`, only posts a write for a registered client. -/
theorem send_frame (s : IOCPServer) (c : Int) (m : String) (len : Int) (sp : Bool) :
    (s.send c m len sp).2 = { s with pending := (s.send c m len sp).2.pending } ∧
      ∀ io ∈ (s.send c m len sp).2.pending, io ∈ s.pending ∨
        (io.clientId = c ∧ (s.clients.find? c).isSome) := by
  unfold send postWrite
  split
  · exact ⟨rfl, fun io hio => .inl hio⟩
  · rename_i info hinfo
    simp only [hinfo]
    split
    · refine ⟨rfl, fun io hio => ?_⟩
      simp only [List.mem_append, List.mem_singleton] at hio
      rcases hio with hio | rfl
      · exact .inl hio
      · exact .inr ⟨rfl, by simp [hinfo]⟩
    · exact ⟨rfl, fun io hio => .inl hio⟩

theorem Inv.send (h : s.Inv) (c : Int) (m : String) (len : Int) (sp : Bool) :
    (s.send c m len sp).2.Inv := by
  obtain ⟨he, hp⟩ := send_frame s c m len sp
  rw [he]
  refine { h with pending_lt := fun io hio => ?_, pending_connected := fun io hio => ?_ } <;>
    rcases hp io hio with hio | ⟨rfl, hreg⟩
  exacts [h.pending_lt io hio, h.clients_lt _ hreg, h.pending_connected io hio,
    h.registered_connected _ hreg]

/-- A handler's effects remove from the table exactly the clients they disconnect. -/
theorem applyAll_find? (s : IOCPServer) (effs : List Effect) (sent : List Bool) (c : Int) :
    (s.applyAll effs sent).clients.find? c =
      if Effect.disconnect c ∈ effs then none else s.clients.find? c := by
  induction effs generalizing s sent with
  | nil => simp [applyAll]
  | cons e effs ih =>
    rw [applyAll, ih]
    cases e with
    | send d m => rw [Effect.apply, (send_frame s d m _ _).1]; simp
    | disconnect d =>
      by_cases hcd : c = d
      · subst hcd; simp [Effect.apply, disconnectClient]
      · simp [Effect.apply, disconnectClient, hcd]

@[simp] theorem apply_nextClientId (s : IOCPServer) (sp : Bool) (e : Effect) :
    (Effect.apply s sp e).nextClientId = s.nextClientId := by
  cases e with
  | send c m => rw [Effect.apply, (send_frame s c m _ sp).1]
  | disconnect c => simp [Effect.apply, disconnectClient]

theorem Inv.apply (h : s.Inv) {e : Effect} (he : e.Allowed s) (sp : Bool) :
    (Effect.apply s sp e).Inv := by
  cases e with
  | send c m => exact h.send c m _ sp
  | disconnect c => exact h.cleanupClient he

theorem Inv.applyAll (h : s.Inv) {effs : List Effect} (he : ∀ e ∈ effs, e.Allowed s)
    (sent : List Bool) : (s.applyAll effs sent).Inv := by
  induction effs generalizing s sent with
  | nil => exact h
  | cons e effs ih =>
    refine ih (h.apply (he e (List.mem_cons_self _ _)) _) (fun e' he' => ?_) _
    cases e' with
    | send => trivial
    | disconnect c => simpa [Effect.Allowed] using he _ (List.mem_cons_of_mem _ he')

end IOCPServer

/-! ## The pool only grows -/

/-- `q` is `p` with some tasks enqueued. -/
structure ThreadPool.Extends (p q : ThreadPool Task) : Prop where
  history : p.history <+: q.history
  started : q.started = p.started
  workers : q.workers = p.workers
  stop : q.stop = p.stop

namespace ThreadPool.Extends

variable {p q r : ThreadPool Task}

theorem refl (p : ThreadPool Task) : Extends p p := ⟨List.prefix_refl _, rfl, rfl, rfl⟩

theorem trans (h₁ : Extends p q) (h₂ : Extends q r) : Extends p r :=
  ⟨h₁.history.trans h₂.history, h₂.started.trans h₁.started, h₂.workers.trans h₁.workers,
    h₂.stop.trans h₁.stop⟩

theorem enqueue (p : ThreadPool Task) (t : Task) : Extends p (p.enqueue t) := by
  refine ⟨?_, by simp, by simp, by simp⟩
  rw [ThreadPool.history_enqueue]
  split
  · exact List.prefix_refl _
  · exact List.prefix_append _ _

end ThreadPool.Extends

/-- The pool of `q` continues that of `p`: its history and its started tasks extend those of
`p`, and it has as many workers. -/
structure ThreadPool.Grows (p q : ThreadPool Task) : Prop where
  history : p.history <+: q.history
  started : p.started <+: q.started
  workers : q.workers.length = p.workers.length

theorem ThreadPool.Grows.refl (p : ThreadPool Task) : p.Grows p :=
  ⟨List.prefix_refl _, List.prefix_refl _, rfl⟩

theorem ThreadPool.Grows.trans {p q r : ThreadPool Task} (h₁ : p.Grows q) (h₂ : q.Grows r) :
    p.Grows r :=
  ⟨h₁.history.trans h₂.history, h₁.started.trans h₂.started, h₂.workers.trans h₁.workers⟩

theorem ThreadPool.Extends.grows {p q : ThreadPool Task} (h : ThreadPool.Extends p q) :
    p.Grows q :=
  ⟨h.history, h.started ▸ List.prefix_refl _, congrArg List.length h.workers⟩

namespace IOCPServer

open ThreadPool

variable {s : IOCPServer}

theorem extends_cleanupClient (s : IOCPServer) (c : Int) :
    Extends s.threadPool (s.cleanupClient c).threadPool := by
  rw [cleanupClient_threadPool]; exact .enqueue _ _

theorem extends_postRead {p : ThreadPool Task} (s : IOCPServer) (hp : s.threadPool = p)
    (io : PerIoData) (rp : Bool) : Extends p (s.postRead io rp).threadPool := by
  subst hp
  unfold IOCPServer.postRead
  split
  · exact .refl _
  · exact extends_cleanupClient _ _

@[simp] theorem postRead_nextClientId (s : IOCPServer) (io : PerIoData) (rp : Bool) :
    (s.postRead io rp).nextClientId = s.nextClientId := by
  unfold IOCPServer.postRead; split <;> simp

theorem extends_acceptSocket (s : IOCPServer) (sock : Socket) (peer : SockAddr)
    (associated : Bool) :
    (s.acceptSocket sock peer associated).threadPool = s.threadPool ∧
      (s.acceptSocket sock peer associated).nextClientId = s.nextClientId := by
  unfold IOCPServer.acceptSocket; split <;> exact ⟨rfl, rfl⟩

theorem extends_handleAccept (s : IOCPServer) (sock : Socket) (rp : Bool) (now : Int) :
    Extends s.threadPool (s.handleAccept sock rp now).threadPool ∧
      s.nextClientId ≤ (s.handleAccept sock rp now).nextClientId := by
  unfold IOCPServer.handleAccept
  refine ⟨(Extends.enqueue _ _).trans (extends_postRead _ (by rfl) _ _), ?_⟩
  simp only [postRead_nextClientId]
  show s.nextClientId ≤ s.nextClientId + 1; omega

theorem extends_complete (s : IOCPServer) (io : PerIoData) (r : Completion) (rp : Bool)
    (now : Int) : Extends s.threadPool (s.complete io r rp now).threadPool ∧
      (s.complete io r rp now).nextClientId = s.nextClientId := by
  unfold IOCPServer.complete
  split
  · exact ⟨extends_cleanupClient _ _, by simp⟩
  · split
    · exact ⟨extends_cleanupClient _ _, by simp⟩
    · split
      · unfold IOCPServer.handleRead
        dsimp only
        split
        · exact ⟨(Extends.enqueue _ _).trans (extends_postRead _ (by rfl) _ _),
            postRead_nextClientId _ _ _⟩
        · exact ⟨extends_postRead _ (by rfl) _ _, postRead_nextClientId _ _ _⟩
      · exact ⟨.refl _, rfl⟩
      · exact ⟨.refl _, rfl⟩

theorem extends_stop (s : IOCPServer) : s.stop.threadPool = s.threadPool ∧
    s.stop.nextClientId = s.nextClientId := by
  unfold IOCPServer.stop; split <;> exact ⟨rfl, rfl⟩

theorem extends_applyAll (s : IOCPServer) (effs : List Effect) (sent : List Bool) :
    Extends s.threadPool (s.applyAll effs sent).threadPool ∧
      (s.applyAll effs sent).nextClientId = s.nextClientId ∧
      (s.applyAll effs sent).running = s.running ∧
      (s.applyAll effs sent).acceptor = s.acceptor := by
  induction effs generalizing s sent with
  | nil => exact ⟨.refl _, rfl, rfl, rfl⟩
  | cons e effs ih =>
    have : Extends s.threadPool (Effect.apply s (sent.headD true) e).threadPool ∧
        (Effect.apply s (sent.headD true) e).running = s.running ∧
        (Effect.apply s (sent.headD true) e).acceptor = s.acceptor := by
      cases e with
      | send c m =>
        rw [Effect.apply, (send_frame s c m _ _).1]; exact ⟨.refl _, rfl, rfl⟩
      | disconnect c =>
        exact ⟨extends_cleanupClient _ _, by simp [Effect.apply, disconnectClient]⟩
    obtain ⟨h1, h2, h3, h4⟩ := ih (Effect.apply s (sent.headD true) e) sent.tail
    exact ⟨this.1.trans h1, h2.trans (apply_nextClientId s _ e), h3.trans this.2.1,
      h4.trans this.2.2⟩

end IOCPServer

end ChatServer
