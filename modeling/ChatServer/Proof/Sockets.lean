import ChatServer.Proof.Lifecycle

/-!
# Sockets and reads

The transport keeps three records of a connection: the socket the operating system holds open,
the entry of `clients` and the entry of `socket_to_id`. `HandleAccept` makes all three, and
only `CleanupClient` and `Stop` remove them, together; between `accept()` and the end of
`HandleAccept` the accept thread holds the open socket, before any record of it. Every client of the table has one read
posted: `HandleAccept` posts the first, `HandleRead` posts the next when one completes, and a
read that cannot be posted cleans the client up. So, in every run:

* `sockets_accounted`: a socket is open exactly when a client of the table has it or the
  accept thread holds it, between `accept()` and the end of `HandleAccept`; `socket_to_id` is
  the inverse of the table, and no two clients share a socket. The server leaks no socket and
  keeps no record of one it closed.
* `one_read_per_client`: every client of the table has exactly one read outstanding, and every
  outstanding operation of a client of the table is on that client's socket.
* `stop_closes_every_socket`: after `Stop`, no client socket is open and both tables are
  empty; the socket the detached accept thread holds is not the transport's to close, and the
  rest of `HandleAccept` registers it after `Stop`.
* `departed_read_reposted`: `CleanupClient` cannot withdraw a completion the port already
  holds. When a read of a client it removed brings bytes, `HandleRead` hands them to
  `on_message` as that client's chunk and `PostRead` posts the read again on the old socket
  number, which an accept may meanwhile have given to another client: that client's socket then
  carries two reads, one under the departed client's id.
-/

namespace ChatServer

namespace IOCPServer

/-- The reads of client `c` among the posted operations. -/
def readsOf (c : Int) (pending : List PerIoData) : Nat :=
  pending.countP fun io => io.clientId = c ∧ io.operation = .read

@[simp] theorem readsOf_append (c : Int) (l l' : List PerIoData) :
    readsOf c (l ++ l') = readsOf c l + readsOf c l' :=
  List.countP_append _ _ _

theorem readsOf_cons (c : Int) (io : PerIoData) (l : List PerIoData) :
    readsOf c (io :: l) = readsOf c [io] + readsOf c l :=
  readsOf_append c [io] l

@[simp] theorem readsOf_singleton (c : Int) (io : PerIoData) :
    readsOf c [io] = if io.clientId = c ∧ io.operation = .read then 1 else 0 := by
  simp [readsOf, List.countP_cons]

theorem readsOf_eq_zero {c : Int} {l : List PerIoData} (h : ∀ io ∈ l, io.clientId ≠ c) :
    readsOf c l = 0 :=
  List.countP_eq_zero.2 fun io hio => by simp [h io hio]

/-- Taking the `i`-th operation out of the list takes its read out of the count. -/
theorem readsOf_eraseIdx (c : Int) : ∀ {l : List PerIoData} {i : Nat} {io : PerIoData},
    l[i]? = some io → readsOf c (l.eraseIdx i) + readsOf c [io] = readsOf c l
  | x :: xs, 0, io, h => by
    obtain rfl : x = io := by simpa using h
    rw [List.eraseIdx_cons_zero, readsOf_cons c x xs, Nat.add_comm]
  | x :: xs, i + 1, io, h => by
    rw [List.eraseIdx_cons_succ, readsOf_cons, readsOf_cons c x xs, Nat.add_assoc,
      readsOf_eraseIdx c (by simpa using h)]

/-- What the records of a connection agree on. -/
structure Tables (s : IOCPServer) : Prop where
  /-- A socket is open exactly when `socket_to_id` has it or the accept thread holds it. -/
  sockets : ∀ sock, (s.peers.find? sock).isSome ↔
    (s.socketToId.find? sock).isSome ∨ s.acceptor = some sock
  /-- The socket the accept thread holds is no client's. -/
  acceptor_free : ∀ sock, s.acceptor = some sock → s.socketToId.find? sock = none
  /-- `socket_to_id` maps a socket to the client of the table that has it. -/
  inverse : ∀ sock c, s.socketToId.find? sock = some c ↔
    ∃ info, s.clients.find? c = some info ∧ info.socket = sock
  /-- An operation of a client of the table is on that client's socket. -/
  own_socket : ∀ io ∈ s.pending, ∀ info, s.clients.find? io.clientId = some info →
    io.socket = info.socket

/-- The records agree, and every client of the table has one read outstanding. -/
structure Accounts (s : IOCPServer) extends s.Tables : Prop where
  one_read : ∀ c, (s.clients.find? c).isSome → readsOf c s.pending = 1

variable {s s' : IOCPServer}

namespace Tables

/-- Two clients of the table with one socket are one client. -/
theorem socket_inj (h : s.Tables) {c d : Int} {ic id : ClientInfo}
    (hc : s.clients.find? c = some ic) (hd : s.clients.find? d = some id)
    (he : ic.socket = id.socket) : c = d := by
  have h₁ := (h.inverse ic.socket c).2 ⟨ic, hc, rfl⟩
  rw [(h.inverse ic.socket d).2 ⟨id, hd, he.symm⟩] at h₁
  exact (Option.some.inj h₁).symm

/-- A socket is open exactly when a client of the table has it or the accept thread holds
it. -/
theorem open_iff (h : s.Tables) (sock : Socket) : (s.peers.find? sock).isSome ↔
    (∃ c info, s.clients.find? c = some info ∧ info.socket = sock) ∨ s.acceptor = some sock := by
  rw [h.sockets, Option.isSome_iff_exists]
  exact or_congr_left (exists_congr fun c => h.inverse sock c)

/-- The socket the accept thread holds is no client's. -/
theorem acceptor_ne (h : s.Tables) {sock : Socket} (hacc : s.acceptor = some sock) {c : Int}
    {info : ClientInfo} (hinfo : s.clients.find? c = some info) : info.socket ≠ sock := by
  rintro rfl
  have hfree := h.acceptor_free _ hacc
  rw [(h.inverse _ c).2 ⟨info, hinfo, rfl⟩] at hfree
  cases hfree

/-- The records read only the open sockets, the two tables, the accept thread's socket and the
posted operations. -/
theorem frame (h : s.Tables) (hp : ∀ sock, s'.peers.find? sock = s.peers.find? sock)
    (hc : ∀ c, s'.clients.find? c = s.clients.find? c)
    (hs : ∀ sock, s'.socketToId.find? sock = s.socketToId.find? sock)
    (ha : s'.acceptor = s.acceptor) (hq : ∀ io ∈ s'.pending, io ∈ s.pending) : s'.Tables where
  sockets sock := by rw [hp, hs, ha]; exact h.sockets sock
  acceptor_free sock hsock := by rw [hs]; exact h.acceptor_free sock (ha ▸ hsock)
  inverse sock c := by simp only [hs, hc]; exact h.inverse sock c
  own_socket io hio info hinfo := h.own_socket io (hq io hio) info (by rwa [← hc])

/-- Posting an operation on the socket of its client. -/
theorem push (h : s.Tables) {io : PerIoData}
    (hsock : ∀ info, s.clients.find? io.clientId = some info → io.socket = info.socket) :
    ({ s with pending := s.pending ++ [io] }).Tables where
  sockets := h.sockets
  acceptor_free := h.acceptor_free
  inverse := h.inverse
  own_socket io' hio' := by
    rcases List.mem_append.1 hio' with hio' | hio'
    · exact h.own_socket io' hio'
    · rw [List.mem_singleton.1 hio']; exact hsock

theorem cleanupClient (h : s.Tables) (c : Int) : (s.cleanupClient c).Tables := by
  cases hinfo : s.clients.find? c with
  | none =>
    refine h.frame (fun _ => ?_) (fun _ => ?_) (fun _ => ?_) ?_ (fun io hio => ?_) <;>
      simp_all [IOCPServer.cleanupClient, enqueue]
  | some info =>
    have hs : s.cleanupClient c = ({ s with
        socketToId := s.socketToId.erase info.socket, clients := s.clients.erase c,
        peers := s.peers.erase info.socket } : IOCPServer).enqueue (.onDisconnect c) := by
      simp only [IOCPServer.cleanupClient, hinfo]; rfl
    rw [hs]
    refine ⟨fun sock => ?_, fun sock hsock => ?_, fun sock d => ?_, fun io hio info' hinfo' => ?_⟩
    · simp only [enqueue, UnorderedMap.find?_erase]
      split
      · subst sock
        simp only [Option.isSome_none, Bool.false_eq_true, false_or, false_iff]
        exact fun hacc => h.acceptor_ne hacc hinfo rfl
      · exact h.sockets sock
    · simp only [enqueue, UnorderedMap.find?_erase] at hsock ⊢
      split
      · rfl
      · exact h.acceptor_free sock hsock
    · simp only [enqueue, UnorderedMap.find?_erase]
      by_cases hsock : sock = info.socket
      · subst hsock
        simp only [if_true, reduceCtorEq, false_iff, not_exists, not_and]
        intro info' hd he
        split at hd
        · cases hd
        · exact ‹¬d = c› (h.socket_inj hd hinfo he)
      · rw [if_neg hsock, h.inverse]
        by_cases hd : d = c
        · subst hd
          simp only [hinfo, Option.some.injEq, exists_eq_left', if_true, reduceCtorEq, false_and,
            exists_false, iff_false]
          exact Ne.symm hsock
        · simp only [hd, if_false]
    · simp only [enqueue, UnorderedMap.find?_erase] at hinfo' ⊢
      split at hinfo'
      · cases hinfo'
      · exact h.own_socket io hio info' hinfo'

/-- An entry of the table changed by a function that keeps its socket is still an entry of the
same client with that socket. -/
theorem find?_modify_socket {m : UnorderedMap Int ClientInfo} {c d : Int}
    {f : ClientInfo → ClientInfo} (hf : ∀ info, (f info).socket = info.socket)
    {info : ClientInfo}
    (h : (m.modify c f).find? d = some info) :
    ∃ info₀, m.find? d = some info₀ ∧ info.socket = info₀.socket := by
  rw [UnorderedMap.find?_modify] at h
  split at h
  · subst d
    obtain ⟨info₀, h₀, rfl⟩ := Option.map_eq_some'.1 h
    exact ⟨info₀, h₀, hf info₀⟩
  · exact ⟨info, h, rfl⟩

/-- `HandleRead` refreshes a client's entry but not its socket. -/
theorem modifyClients (h : s.Tables) (c : Int) {f : ClientInfo → ClientInfo}
    (hf : ∀ info, (f info).socket = info.socket) :
    ({ s with clients := s.clients.modify c f } : IOCPServer).Tables where
  sockets := h.sockets
  acceptor_free := h.acceptor_free
  inverse sock d := by
    rw [h.inverse]
    refine ⟨fun ⟨info, hi, hs⟩ => ?_, fun ⟨info, hi, hs⟩ => ?_⟩
    · refine ⟨if d = c then f info else info, ?_, by split <;> simp [hf, hs]⟩
      simp only [UnorderedMap.find?_modify]
      split
      · subst d; simp [hi]
      · exact hi
    · obtain ⟨info₀, h₀, he⟩ := find?_modify_socket hf hi
      exact ⟨info₀, h₀, he ▸ hs⟩
  own_socket io hio info hinfo := by
    obtain ⟨info₀, h₀, he⟩ := find?_modify_socket hf hinfo
    exact he ▸ h.own_socket io hio info₀ h₀

end Tables

/-- `Stop`'s loop over the table closes exactly the sockets of the clients it visits. -/
theorem find?_foldl_erase (l : List (Int × ClientInfo)) (peers : UnorderedMap Socket SockAddr)
    (sock : Socket) :
    (l.foldl (fun peers p => peers.erase p.2.socket) peers).find? sock =
      if sock ∈ l.map (·.2.socket) then none else peers.find? sock := by
  induction l generalizing peers with
  | nil => simp
  | cons p l ih =>
    rw [List.foldl_cons, ih, List.map_cons, UnorderedMap.find?_erase]
    by_cases hl : sock ∈ l.map (·.2.socket)
    · simp [hl]
    · by_cases hp : sock = p.2.socket <;> simp [hl, hp]

namespace Accounts

theorem cleanupClient (h : s.Accounts) (c : Int) : (s.cleanupClient c).Accounts where
  toTables := h.toTables.cleanupClient c
  one_read d hd := by
    rw [cleanupClient_find?] at hd
    split at hd
    · cases hd
    · simpa using h.one_read d hd

/-- `PostRead` of a read whose client's count is missing it: the read is posted, or the client
is cleaned up. -/
theorem postRead (h : s.Tables) {io : PerIoData} (hop : io.operation = .read)
    (hsock : ∀ info, s.clients.find? io.clientId = some info → io.socket = info.socket)
    (hreads : ∀ c, (s.clients.find? c).isSome →
      readsOf c s.pending + (if io.clientId = c then 1 else 0) = 1)
    (recvPending : Bool) : (s.postRead io recvPending).Accounts := by
  unfold IOCPServer.postRead
  split
  · refine ⟨h.push hsock, fun c hc => ?_⟩
    simpa [hop] using hreads c hc
  · refine ⟨h.cleanupClient _, fun c hc => ?_⟩
    rw [cleanupClient_find?] at hc
    split at hc
    · cases hc
    · simpa [Ne.symm ‹¬c = io.clientId›] using hreads c hc

/-- The accept thread's `accept()` of a socket not open: it holds the socket, or closes it
again. -/
theorem acceptSocket (h : s.Accounts) (hacc : s.acceptor = none) {sock : Socket}
    (hfree : s.peers.find? sock = none) (peer : SockAddr) (associated : Bool) :
    (s.acceptSocket sock peer associated).Accounts := by
  have hsn : s.socketToId.find? sock = none :=
    Option.not_isSome_iff_eq_none.1 fun hs => by
      have := (h.sockets sock).2 (.inl hs)
      rw [hfree] at this
      cases this
  unfold IOCPServer.acceptSocket
  split
  · -- the accept thread holds the socket
    refine ⟨⟨fun sock' => ?_, fun sock' hsock' => ?_, h.inverse, h.own_socket⟩, h.one_read⟩
    · simp only [UnorderedMap.find?_set]
      by_cases hs : sock' = sock
      · subst hs; simp [hsn]
      · rw [if_neg hs, h.sockets sock', hacc]
        simp [Ne.symm hs]
    · cases hsock'; exact hsn
  · -- it closes the socket again
    refine ⟨⟨fun sock' => ?_, fun sock' hsock' => ?_, h.inverse, h.own_socket⟩, h.one_read⟩
    · simp only [closeSocket, UnorderedMap.find?_erase, UnorderedMap.find?_set]
      by_cases hs : sock' = sock
      · subst hs; simp [hsn, hacc]
      · simp only [hs, if_false]; exact h.sockets sock'
    · rw [hacc] at hsock'; cases hsock'

/-- The rest of `HandleAccept`: the socket the accept thread holds gets all three records, its
client the next id and its first read. -/
theorem handleAccept (h : s.Accounts) (hinv : s.Inv) {sock : Socket}
    (hacc : s.acceptor = some sock) (recvPending : Bool) (now : Int) :
    (s.handleAccept sock recvPending now).Accounts := by
  have hsn : s.socketToId.find? sock = none := h.acceptor_free sock hacc
  have hcn : s.clients.find? s.nextClientId = none :=
    Option.not_isSome_iff_eq_none.1 fun hc => lt_irrefl _ (hinv.clients_lt _ hc)
  unfold IOCPServer.handleAccept
  dsimp only
  refine Accounts.postRead ⟨fun sock' => ?_, fun sock' hsock' => by simp [enqueue] at hsock',
    fun sock' d => ?_, fun io hio info' hinfo' => ?_⟩ rfl (fun info' hinfo' => ?_) (fun d hd => ?_)
    recvPending
  · simp only [enqueue, UnorderedMap.find?_set]
    split
    · subst sock'
      simp only [Option.isSome_some, true_or, iff_true]
      exact (h.sockets _).2 (.inr hacc)
    · rw [h.sockets sock', hacc]
      simp [Ne.symm ‹¬sock' = sock›]
  · simp only [enqueue, UnorderedMap.find?_set]
    by_cases hs : sock' = sock <;> by_cases hd : d = s.nextClientId
    · simp [hs, hd]
    · rw [if_pos hs, if_neg hd]
      subst hs
      refine ⟨fun he => absurd (Option.some.inj he).symm hd, ?_⟩
      rintro ⟨info', hinfo', he⟩
      rw [(h.inverse sock' d).2 ⟨info', hinfo', he⟩] at hsn
      cases hsn
    · rw [if_neg hs, if_pos hd]
      subst hd
      refine ⟨fun hsd => ?_, ?_⟩
      · obtain ⟨_, hinfo', -⟩ := (h.inverse sock' _).1 hsd
        rw [hcn] at hinfo'
        cases hinfo'
      · rintro ⟨info', he, hsock⟩
        cases he
        exact absurd hsock (Ne.symm hs)
    · rw [if_neg hs, if_neg hd]
      exact h.inverse sock' d
  · simp only [enqueue, UnorderedMap.find?_set] at hio hinfo' ⊢
    split at hinfo'
    · exact absurd (hinv.pending_lt io hio) (by omega)
    · exact h.own_socket io hio info' hinfo'
  · obtain rfl := by simpa [enqueue, readOp] using hinfo'
    rfl
  · simp only [enqueue, UnorderedMap.find?_set] at hd
    simp only [enqueue, readOp]
    split at hd
    · subst d
      rw [readsOf_eq_zero fun io hio => (hinv.pending_lt io hio).ne]
      simp
    · rw [h.one_read d hd, if_neg (Ne.symm ‹_›)]

/-- One completion taken from the port: the client is cleaned up, its read is posted again,
or a write is freed. -/
theorem complete (h : s.Accounts) {i : Nat} {io : PerIoData} (hio : s.pending[i]? = some io)
    (r : Completion) (recvPending : Bool) (now : Int) :
    (({ s with pending := s.pending.eraseIdx i } : IOCPServer).complete io r recvPending
      now).Accounts := by
  have ht : ({ s with pending := s.pending.eraseIdx i } : IOCPServer).Tables :=
    h.toTables.frame (fun _ => rfl) (fun _ => rfl) (fun _ => rfl) rfl
      fun _ => List.mem_of_mem_eraseIdx
  have hown := h.own_socket io (List.getElem?_mem hio)
  -- every client of the table keeps its count, but for the operation taken out
  have hrest : ∀ c, (s.clients.find? c).isSome →
      readsOf c (s.pending.eraseIdx i) + readsOf c [io] = 1 :=
    fun c hc => (readsOf_eraseIdx c hio).trans (h.one_read c hc)
  have hclean : (({ s with pending := s.pending.eraseIdx i } : IOCPServer).cleanupClient
      io.clientId).Accounts := by
    refine ⟨ht.cleanupClient _, fun c hc => ?_⟩
    rw [cleanupClient_find?] at hc
    split at hc
    · cases hc
    · simpa [‹¬c = io.clientId›, Ne.symm ‹¬c = io.clientId›] using hrest c hc
  have hkeep (hop : io.operation ≠ .read) :
      ({ s with pending := s.pending.eraseIdx i } : IOCPServer).Accounts :=
    ⟨ht, fun c hc => by simpa [hop] using hrest c hc⟩
  unfold IOCPServer.complete
  split
  · exact hclean
  · split
    · exact hclean
    · split
      · -- a read: `HandleRead` posts it again
        rename_i hop
        have hf : ∀ info : ClientInfo, ({ info with
            lastActivity := now, messageCount := info.messageCount + 1 } : ClientInfo).socket =
              info.socket :=
          fun _ => rfl
        have hsock : ∀ info, (s.clients.modify io.clientId fun info => { info with
            lastActivity := now, messageCount := info.messageCount + 1 }).find? io.clientId =
              some info → io.socket = info.socket := fun info hinfo => by
          obtain ⟨info₀, h₀, he⟩ := Tables.find?_modify_socket hf hinfo
          rw [he]; exact hown info₀ h₀
        have hreads : ∀ c, ((s.clients.modify io.clientId fun info => { info with
            lastActivity := now, messageCount := info.messageCount + 1 }).find? c).isSome →
              readsOf c (s.pending.eraseIdx i) + (if io.clientId = c then 1 else 0) = 1 :=
          fun c hc => by
            obtain ⟨info, hinfo⟩ := Option.isSome_iff_exists.1 hc
            obtain ⟨info₀, h₀, -⟩ := Tables.find?_modify_socket hf hinfo
            simpa [hop] using hrest c (by simp [h₀])
        unfold IOCPServer.handleRead
        dsimp only
        have t := ht.modifyClients io.clientId hf
        split
        · apply Accounts.postRead _ hop hsock hreads recvPending
          exact ⟨t.sockets, t.acceptor_free, t.inverse, t.own_socket⟩
        · exact Accounts.postRead t hop hsock hreads recvPending
      · rename_i hop
        exact hkeep (by rw [hop]; decide)
      · rename_i hop
        exact hkeep (by rw [hop]; decide)

/-- `Stop` closes the socket of every client of the table and clears both tables; the socket
the accept thread holds stays open. -/
theorem stop (h : s.Accounts) : s.stop.Accounts := by
  unfold IOCPServer.stop
  split
  · exact h
  · refine ⟨⟨fun sock => ?_, fun sock _ => by simp, fun sock c => by simp,
      fun io _ info hinfo => by simp at hinfo⟩, fun c hc => by simp at hc⟩
    simp only [find?_foldl_erase, UnorderedMap.find?_empty, Option.isSome_none, Bool.false_eq_true,
      false_or]
    split
    · rename_i hmem
      obtain ⟨⟨c, info⟩, hp, rfl⟩ := List.mem_map.1 hmem
      simp only [Option.isSome_none, Bool.false_eq_true, false_iff]
      exact fun hacc => h.acceptor_ne hacc (UnorderedMap.find?_of_mem _ hp) rfl
    · rename_i hmem
      rw [h.sockets sock]
      refine or_iff_right fun hs => hmem ?_
      obtain ⟨c, hc⟩ := Option.isSome_iff_exists.1 hs
      obtain ⟨info, hinfo, rfl⟩ := (h.inverse _ c).1 hc
      exact List.mem_map.2 ⟨(c, info), UnorderedMap.mem_of_find? hinfo, rfl⟩

/-- `Send` posts a write on the socket of its client, which leaves every count. -/
theorem send (h : s.Accounts) (c : Int) (m : String) (len : Int) (sendPending : Bool) :
    (s.send c m len sendPending).2.Accounts := by
  unfold IOCPServer.send postWrite
  split
  · exact h
  · rename_i info hinfo
    dsimp only
    split
    · refine ⟨h.toTables.push fun info' hinfo' => ?_, fun d hd => ?_⟩
      · simp only [writeOp, hinfo, Option.some.injEq] at hinfo' ⊢
        rw [hinfo']
      · simpa [writeOp] using h.one_read d hd
    · exact h

theorem apply (h : s.Accounts) (sendPending : Bool) (e : Effect) :
    (Effect.apply s sendPending e).Accounts := by
  cases e with
  | send c m => exact h.send c m _ sendPending
  | disconnect c => exact h.cleanupClient c

theorem applyAll (h : s.Accounts) (effs : List Effect) (sent : List Bool) :
    (s.applyAll effs sent).Accounts := by
  induction effs generalizing s sent with
  | nil => exact h
  | cons e effs ih => exact ih (h.apply _ e) _

/-- The records do not read the pool. -/
theorem setPool (h : s.Accounts) (p : ThreadPool Task) :
    ({ s with threadPool := p } : IOCPServer).Accounts :=
  ⟨⟨h.sockets, h.acceptor_free, h.inverse, h.own_socket⟩, h.one_read⟩

end Accounts

end IOCPServer

namespace System

open IOCPServer

theorem accounts_init (lt : Int → Tm) (conn : CMConfig) (poolSize processors : Nat)
    (fs : FileSystem) (wall : Int) : (init lt conn poolSize processors fs wall).server.Accounts :=
  ⟨⟨fun _ => by simp [init, IOCPServer.start], fun _ h => by simp [init, IOCPServer.start] at h,
    fun _ _ => by simp [init, IOCPServer.start], fun _ hio => by simp [init, IOCPServer.start] at hio⟩,
    fun _ hc => by simp [init, IOCPServer.start] at hc⟩

/-- Every step keeps the records of the transport. -/
theorem accounts_step {lt : Int → Tm} {s s' : System} (h : s.Inv) (ha : s.server.Accounts)
    {a : Action} (hs : s.step lt a = some s') : s'.server.Accounts := by
  obtain ⟨-, hcase⟩ := step_cases hs
  rcases hcase with ⟨sock, peer, assoc, -, hacc, hfree, rfl⟩ | ⟨sock, rp, now, hacc, -, rfl⟩ |
    ⟨i, io, r, rp, now, hio, -, -, rfl⟩ | ⟨w, p, -, rfl⟩ | ⟨-, -, -, -, -, -, -, -, -, rfl⟩ |
    ⟨w, clk, sent, t, p, -, -, rfl⟩ | ⟨now, -, rfl⟩ | rfl | ⟨-, -, rfl⟩ | ⟨-, rfl⟩
  · exact ha.acceptSocket hacc hfree peer assoc
  · exact ha.handleAccept h.server hacc rp now
  · exact ha.complete hio r rp now
  · exact ha.setPool p
  · exact ha
  · exact (ha.setPool p).applyAll _ _
  · exact ha.applyAll _ _
  · exact ha.stop
  · exact ha.setPool _
  · exact ha

theorem accounts_run {lt : Int → Tm} {conn : CMConfig} {poolSize processors : Nat}
    {fs : FileSystem} {wall : Int} {acts : List Action} {s : System}
    (hr : (init lt conn poolSize processors fs wall).run lt acts = some s) : s.server.Accounts :=
  (run_preserves (P := fun s => s.Inv ∧ s.server.Accounts)
    (fun hs h => ⟨h.1.step hs, accounts_step h.1 h.2 hs⟩) hr
    ⟨inv_init lt conn poolSize processors fs wall,
      accounts_init lt conn poolSize processors fs wall⟩).2

/-- Two clients connect on sockets 1 and 2. -/
def twoConnect : List Action :=
  [.accept 1 ⟨"10.0.0.1", 5000⟩ true, .register true 0, .accept 2 ⟨"10.0.0.2", 5001⟩ true, .register true 0]

/-- **A read of a departed client is posted again on the socket that now has its number.** In
every run from the state `main` starts, when a read of a client no longer in the table completes
with bytes while the running server has given its socket number to a client `d`: `on_message`
of the departed client is queued with the bytes, the read is posted again under the departed
client's id on `d`'s socket, and `d`'s own read stays outstanding on that socket. -/
theorem departed_read_reposted {lt : Int → Tm} {conn : CMConfig} {poolSize processors : Nat}
    {fs : FileSystem} {wall : Int} {acts : List Action} {s : System}
    (hr : (init lt conn poolSize processors fs wall).run lt acts = some s) {i : Nat}
    {io : PerIoData} (hio : s.server.pending[i]? = some io) (hread : io.operation = .read)
    (hgone : s.server.clients.find? io.clientId = none) (hrun : s.server.running = true)
    {d : Int} {info : ClientInfo} (hd : s.server.clients.find? d = some info)
    (hsock : info.socket = io.socket) {bytes : String} (hb : 0 < bytes.length)
    (hbytes : isBytes bytes = true) (now : Int) :
    ∃ s', s.step lt (.complete i (.ok bytes) true now) = some s' ∧
      Task.onMessage io.clientId bytes ∈ s'.server.threadPool.tasks ∧
      { io with buffer := "", wsaBufLen := maxLen } ∈ s'.server.pending ∧
      ∃ io' ∈ s'.server.pending, io'.clientId = d ∧ io'.operation = .read ∧
        io'.socket = io.socket := by
  have hinv := (inv_init lt conn poolSize processors fs wall).run hr
  have ha := accounts_run hr
  have hopen : (s.server.peers.find? io.socket).isSome := (ha.open_iff _).2 (.inl ⟨d, info, hd, hsock⟩)
  have hcr : s.crashed = false := by
    cases hc : s.crashed
    · rfl
    · simp [hinv.torn_stopped (hinv.crashed_torn hc)] at hrun
  have hstep : s.step lt (.complete i (.ok bytes) true now) = _ :=
    step_complete hcr hio hrun (r := .ok bytes) hbytes true now
  refine ⟨_, hstep, ?_⟩
  have ha' := accounts_step hinv ha hstep
  have hb' : bytes.length ≠ 0 := Nat.pos_iff_ne_zero.1 hb
  have hd' : d ≠ io.clientId := fun h => by rw [h, hgone] at hd; cases hd
  simp only [IOCPServer.complete, hb', false_and, if_false, hread, IOCPServer.handleRead,
    hb, if_true, IOCPServer.enqueue, IOCPServer.postRead, hopen, Bool.true_and, ThreadPool.enqueue,
    hinv.server.running_stop hrun, Bool.false_eq_true] at ha' ⊢
  refine ⟨by simp, by simp, ?_⟩
  have hd'' : ∀ f, (s.server.clients.modify io.clientId f).find? d = some info := fun f => by
    simp [hd, hd']
  obtain ⟨io', hio', hp⟩ := List.countP_pos_iff.1
    (Nat.lt_of_lt_of_eq Nat.one_pos (ha'.one_read d (by rw [hd'']; rfl)).symm)
  simp only [decide_eq_true_eq] at hp
  exact ⟨io', hio', hp.1, hp.2, (ha'.own_socket io' hio' info (hp.1 ▸ hd'' _)).trans hsock⟩

/-- Client 1 connects on socket 1 and sends the exit command; a worker runs its `on_connect`,
then its `on_message`, which disconnects it and leaves the read `HandleRead` posted outstanding;
an accept then gives socket 1 to client 2. -/
def exitThenReuse : List Action :=
  [.accept 1 ⟨"10.0.0.1", 5000⟩ true, .register true 0, .take 0, .finish 0 ⟨0, 0⟩ [],
    .complete 0 (.ok "\x23exit\n") true 0, .take 0, .finish 0 ⟨0, 0⟩ [],
    .accept 1 ⟨"10.0.0.2", 5000⟩ true, .register true 0]

/-- The state after `exitThenReuse`. -/
def reuseState : System := (boot.run noonClock exitThenReuse).get (by decide)

theorem departed_read_reposted_exit :
    ∃ info, reuseState.server.clients.find? 1 = none ∧
      reuseState.server.clients.find? 2 = some info ∧ info.socket = 1 ∧
      ∃ s', reuseState.step noonClock (.complete 1 (.ok "hi\n") true 0) = some s' ∧
        Task.onMessage 1 "hi\n" ∈ s'.server.threadPool.tasks ∧
        { readOp 1 1 with buffer := "", wsaBufLen := maxLen } ∈ s'.server.pending ∧
        ∃ io' ∈ s'.server.pending, io'.clientId = 2 ∧ io'.operation = .read ∧
          io'.socket = 1 :=
  have hr : boot.run noonClock exitThenReuse = some reuseState := (Option.some_get _).symm
  have hinfo : reuseState.server.clients.find? 2 =
      some ((reuseState.server.clients.find? 2).get (by decide)) := (Option.some_get _).symm
  have hio : reuseState.server.pending[1]? = some (readOp 1 1) := by decide
  ⟨_, by decide, hinfo, by decide, departed_read_reposted hr hio rfl (by decide) (by decide) hinfo
    (by decide) (by decide) (by decide) 0⟩

end System

end ChatServer
