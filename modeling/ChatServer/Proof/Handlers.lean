import ChatServer.Proof.Membership
import ChatServer.Proof.Transport
import Mathlib.Logic.Relation

/-!
# What the handlers do

Spec lemmas for the handlers of `server.cpp`, in the terms the lifecycle invariants need: how
the rooms move, whose name changes, which lines are printed, whom the handler disconnects,
and what happens to the connection count.

* `RoomsMove c`: a `JoinRoom` of client `c`, or a `CreateRoom` by it. Each keeps the
  membership invariant and every room public, and touches no other client's room.
* `AppStep c`: what a handler of client `c` other than `HandleConnect` and
  `HandleDisconnect` does to the application state: rooms moved by `c`, no name but `c`'s
  set, no `connected` line printed, the connection count unchanged.
* `PartOK`: the first part of a handler of client `c` is a `HandlerOK` result, or stops after
  an `AppStep` with no effect.
* `handleMessage_ok`: `HandleMessage` is an `AppStep`, and it disconnects only its own client
  or a named one; so is each of its two parts, `messageBegin_ok` and `Resume.run_ok`.
* `connectAllow_spec`, `connectAdmitted_spec`: the two parts of `HandleConnect`;
  `handleDisconnect_spec`, `disconnectRest_spec`: `HandleDisconnect`, whole and after its stop
  inside `OnDisconnect`.
-/

namespace ChatServer

namespace ChatRoomManager

variable {m m' : ChatRoomManager} {c : Int}

/-- Every room is public. The server calls `CreateRoom` with its default `is_private = false`,
so this holds in every run. -/
def AllPublic (rooms : UnorderedMap String Room) : Prop :=
  ∀ x g, rooms.find? x = some g → g.isPrivate = false

theorem allPublic_new : AllPublic new.rooms := by
  intro x g hg
  simp only [new, UnorderedMap.find?_set, UnorderedMap.find?_empty] at hg
  split at hg
  · cases hg; rfl
  · cases hg

theorem joinRoom_clientRooms (m : ChatRoomManager) (x : String) (c : Int) (pw : String)
    (c' : Int) : (m.joinRoom x c pw).2.clientRooms.find? c' =
      if c' = c ∧ (m.joinRoom x c pw).1 = true then some x else m.clientRooms.find? c' := by
  unfold joinRoom
  split
  · simp
  · split
    · simp
    · simp only [UnorderedMap.find?_set, and_true]

/-- With every room public, `JoinRoom` of a room that exists succeeds, whatever the password. -/
theorem joinRoom_of_allPublic (hp : AllPublic m.rooms) {x : String} {g : Room}
    (hx : m.rooms.find? x = some g) (c : Int) (pw : String) : (m.joinRoom x c pw).1 = true := by
  simp [joinRoom, hx, hp x g hx]

theorem joinRoom_general (hp : AllPublic m.rooms) (hi : m.Inv) (c : Int) :
    (m.joinRoom "general" c).1 = true :=
  let ⟨_, hgen⟩ := Option.isSome_iff_exists.1 hi.general
  joinRoom_of_allPublic hp hgen c ""

theorem createRoom_clientRooms (m : ChatRoomManager) (x : String) (o : Int) (p : Bool)
    (pw : String) : (m.createRoom x o p pw).2.clientRooms = m.clientRooms := by
  unfold createRoom; split <;> rfl

theorem leaveRoom_clientRooms (m : ChatRoomManager) (c c' : Int) :
    (m.leaveRoom c).clientRooms.find? c' = if c' = c then none else m.clientRooms.find? c' := by
  unfold leaveRoom
  split
  · rename_i h
    split
    · subst c'; exact h
    · rfl
  · simp

theorem AllPublic.modify {rooms : UnorderedMap String Room} (h : AllPublic rooms) (k : String)
    {f : Room → Room} (hf : ∀ r, (f r).isPrivate = r.isPrivate) : AllPublic (rooms.modify k f) := by
  intro x g hg
  simp only [UnorderedMap.find?_modify] at hg
  split at hg
  · obtain ⟨g', hg', rfl⟩ := Option.map_eq_some'.1 hg
    rw [hf]; exact h k g' hg'
  · exact h x g hg

theorem AllPublic.leaveCurrent (h : AllPublic m.rooms) (c : Int) : AllPublic (m.leaveCurrent c) := by
  unfold ChatRoomManager.leaveCurrent
  split
  · exact h.modify _ fun _ => rfl
  · exact h

theorem AllPublic.joinRoom (h : AllPublic m.rooms) (x : String) (c : Int) (pw : String) :
    AllPublic (m.joinRoom x c pw).2.rooms := by
  unfold ChatRoomManager.joinRoom
  split
  · exact h
  · split
    · exact h
    · exact (h.leaveCurrent c).modify x fun _ => rfl

theorem AllPublic.createRoom (h : AllPublic m.rooms) (x : String) (o : Int) :
    AllPublic (m.createRoom x o).2.rooms := by
  unfold ChatRoomManager.createRoom
  split
  · exact h
  · intro y g hg
    simp only [UnorderedMap.find?_set] at hg
    split at hg
    · cases hg; rfl
    · exact h y g hg

theorem AllPublic.leaveRoom (h : AllPublic m.rooms) (c : Int) : AllPublic (m.leaveRoom c).rooms := by
  unfold ChatRoomManager.leaveRoom
  split
  · exact h
  · exact h.leaveCurrent c

/-- One change a handler of client `c` makes to the rooms: a `JoinRoom` of `c`, or a
`CreateRoom` by `c` with the default privacy. -/
inductive RoomsMove (c : Int) : ChatRoomManager → ChatRoomManager → Prop
  | join (m : ChatRoomManager) (x pw : String) : RoomsMove c m (m.joinRoom x c pw).2
  | create (m : ChatRoomManager) (x : String) : RoomsMove c m (m.createRoom x c).2

theorem RoomsMove.inv (h : RoomsMove c m m') (hi : m.Inv) : m'.Inv := by
  cases h with
  | join x pw => exact hi.joinRoom x c pw
  | create x => exact hi.createRoom x c false ""

theorem RoomsMove.allPublic (h : RoomsMove c m m') (hp : AllPublic m.rooms) : AllPublic m'.rooms := by
  cases h with
  | join x pw => exact hp.joinRoom x c pw
  | create x => exact hp.createRoom x c

theorem RoomsMove.clientRooms_other (h : RoomsMove c m m') {c' : Int} (hc : c' ≠ c) :
    m'.clientRooms.find? c' = m.clientRooms.find? c' := by
  cases h with
  | join x pw => simp [joinRoom_clientRooms, hc]
  | create x => rw [createRoom_clientRooms]

theorem RoomsMove.clientRooms_isSome (h : RoomsMove c m m') {c' : Int}
    (hc : (m.clientRooms.find? c').isSome) : (m'.clientRooms.find? c').isSome := by
  cases h with
  | join x pw => rw [joinRoom_clientRooms]; split <;> simp_all
  | create x => rwa [createRoom_clientRooms]

/-- The changes a sequence of moves of `c` keeps. -/
theorem RoomsMove.star {P : ChatRoomManager → Prop}
    (hP : ∀ m m', RoomsMove c m m' → m.Inv → P m → P m')
    (h : Relation.ReflTransGen (RoomsMove c) m m') (hi : m.Inv) (hp : P m) : m'.Inv ∧ P m' := by
  induction h with
  | refl => exact ⟨hi, hp⟩
  | tail _ hmove ih => exact ⟨hmove.inv ih.1, hP _ _ hmove ih.1 ih.2⟩

end ChatRoomManager

open ChatRoomManager

/-- What a handler of client `c` other than `HandleConnect` and `HandleDisconnect` may do to
the application state. -/
structure AppStep (c : Int) (a a' : App) : Prop where
  rooms : Relation.ReflTransGen (RoomsMove c) a.chatRooms a'.chatRooms
  names : ∀ c', c' ≠ c → a'.clientNames.find? c' = a.clientNames.find? c'
  log : ∃ L, a'.log = a.log ++ L ∧ ∀ c' ip, LogLine.connected c' ip ∉ L
  conns : a'.connectionManager.currentConnections = a.connectionManager.currentConnections
  config : a'.connectionManager.config = a.connectionManager.config
  bans : ∀ ip, ip ∈ a.connectionManager.bannedIps → ip ∈ a'.connectionManager.bannedIps

namespace AppStep

variable {c : Int} {a a₁ a₂ : App}

theorem refl (c : Int) (a : App) : AppStep c a a :=
  ⟨.refl, fun _ _ => rfl, ⟨[], by simp, by simp⟩, rfl, rfl, fun _ => id⟩

theorem trans (h₁ : AppStep c a a₁) (h₂ : AppStep c a₁ a₂) : AppStep c a a₂ where
  rooms := h₁.rooms.trans h₂.rooms
  names c' hc := (h₂.names c' hc).trans (h₁.names c' hc)
  log := by
    obtain ⟨L₁, e₁, n₁⟩ := h₁.log
    obtain ⟨L₂, e₂, n₂⟩ := h₂.log
    exact ⟨L₁ ++ L₂, by rw [e₂, e₁, List.append_assoc], fun c' ip h => by
      rcases List.mem_append.1 h with h | h
      exacts [n₁ c' ip h, n₂ c' ip h]⟩
  conns := h₂.conns.trans h₁.conns
  config := h₂.config.trans h₁.config
  bans ip h := h₂.bans ip (h₁.bans ip h)

/-- A change of the controller alone that keeps the connection count, the configuration and
the bans. -/
theorem controller (a : App) (cm : ConnectionManager)
    (h : cm.currentConnections = a.connectionManager.currentConnections)
    (hc : cm.config = a.connectionManager.config)
    (hb : ∀ ip, ip ∈ a.connectionManager.bannedIps → ip ∈ cm.bannedIps) :
    AppStep c a { a with connectionManager := cm } :=
  ⟨.refl, fun _ _ => rfl, ⟨[], by simp, by simp⟩, h, hc, hb⟩

theorem print (h : AppStep c a a₁) (l : LogLine) (hl : ∀ c' ip, l ≠ .connected c' ip) :
    AppStep c a (a₁.print l) :=
  h.trans ⟨.refl, fun _ _ => rfl, ⟨[l], rfl, by simpa [eq_comm] using hl⟩, rfl, rfl, fun _ => id⟩

theorem rooms_move (a : App) {m : ChatRoomManager} (h : RoomsMove c a.chatRooms m) :
    AppStep c a { a with chatRooms := m } :=
  ⟨.single h, fun _ _ => rfl, ⟨[], by simp, by simp⟩, rfl, rfl, fun _ => id⟩

theorem setClientName (a : App) (c : Int) (n : String) : AppStep c a (a.setClientName c n) :=
  ⟨.refl, fun c' hc => by simp [App.setClientName, hc], ⟨[], by simp [App.setClientName], by simp⟩,
    rfl, rfl, fun _ => id⟩

theorem store (a : App) (st : MessageStore) : AppStep c a { a with messageStore := st } :=
  ⟨.refl, fun _ _ => rfl, ⟨[], by simp, by simp⟩, rfl, rfl, fun _ => id⟩

end AppStep

/-! ## Effects -/

/-- A list of effects disconnects only client `c` or clients with a name in `a`. -/
def DisconnectsOK (a : App) (c : Int) (effs : List Effect) : Prop :=
  ∀ d, Effect.disconnect d ∈ effs → d = c ∨ (a.clientNames.find? d).isSome

@[simp] theorem disconnect_not_mem_sendToClient (d c : Int) (m : String) :
    Effect.disconnect d ∉ sendToClient c m := by
  unfold sendToClient; split_ifs <;> simp

@[simp] theorem disconnect_not_mem_sendToAll (d : Int) (ids : List Int) (m : String) :
    Effect.disconnect d ∉ sendToAll ids m := by
  simp [sendToAll]

theorem disconnectsOK_of_sends {a : App} {c : Int} {effs : List Effect}
    (h : ∀ d, Effect.disconnect d ∉ effs) : DisconnectsOK a c effs :=
  fun d hd => absurd hd (h d)

/-- `FindClient(n)`, when it finds a client, finds one named `n`. -/
theorem App.find?_findClient {a : App} {n : String} (h : a.findClient n ≠ -1) :
    a.clientNames.find? (a.findClient n) = some n := by
  unfold App.findClient at h ⊢
  cases hf : a.clientNames.entries.find? (fun p => p.2 = n) with
  | none => simp [hf] at h
  | some p =>
    have hp : p.2 = n := by simpa using List.find?_some hf
    simp [UnorderedMap.find?_of_mem _ (List.mem_of_find?_eq_some hf), hp]

/-- A client found by name has a name. -/
theorem App.findClient_isSome {a : App} {n : String} (h : a.findClient n ≠ -1) :
    (a.clientNames.find? (a.findClient n)).isSome := by
  rw [App.find?_findClient h]; rfl

/-- What a handler of client `c` started on `a` returns: an `AppStep`, and effects that
disconnect only `c` or named clients. -/
def HandlerOK (a : App) (c : Int) (r : App × List Effect) : Prop :=
  AppStep c a r.1 ∧ DisconnectsOK a c r.2

namespace HandlerOK

variable {a : App} {c : Int}

theorem ite {p : Prop} [Decidable p] {x y : App × List Effect} (hx : HandlerOK a c x)
    (hy : HandlerOK a c y) : HandlerOK a c (if p then x else y) := by
  split <;> assumption

theorem controller {cm : ConnectionManager}
    (hcm : cm.currentConnections = a.connectionManager.currentConnections)
    (hcf : cm.config = a.connectionManager.config)
    (hcb : ∀ ip, ip ∈ a.connectionManager.bannedIps → ip ∈ cm.bannedIps) {r : App × List Effect}
    (h : HandlerOK { a with connectionManager := cm } c r) : HandlerOK a c r :=
  ⟨(AppStep.controller a cm hcm hcf hcb).trans h.1, h.2⟩

/-- A reply that changes nothing. -/
theorem reply (effs : List Effect) (h : ∀ d, Effect.disconnect d ∉ effs) :
    HandlerOK a c (a, effs) :=
  ⟨.refl c a, disconnectsOK_of_sends h⟩

end HandlerOK

/-- What the first part of a handler of client `c` started on `a` gives: a result as
`HandlerOK` says, or, where it stops, an `AppStep` with no effect yet. -/
def PartOK (a : App) (c : Int) : Part → Prop
  | .done r => HandlerOK a c r
  | .stopped a' _ => AppStep c a a'

namespace PartOK

variable {a : App} {c : Int}

theorem ite {p : Prop} [Decidable p] {x y : Part} (hx : PartOK a c x) (hy : PartOK a c y) :
    PartOK a c (if p then x else y) := by
  split <;> assumption

theorem controller {cm : ConnectionManager}
    (hcm : cm.currentConnections = a.connectionManager.currentConnections)
    (hcf : cm.config = a.connectionManager.config)
    (hcb : ∀ ip, ip ∈ a.connectionManager.bannedIps → ip ∈ cm.bannedIps) {p : Part}
    (h : PartOK { a with connectionManager := cm } c p) : PartOK a c p := by
  cases p with
  | done r => exact HandlerOK.controller hcm hcf hcb h
  | stopped a' k => exact (AppStep.controller a cm hcm hcf hcb).trans h

/-- A first part and the rest from where it stopped. -/
theorem finish {p : Part} (h : PartOK a c p)
    (hk : ∀ a' k, p = .stopped a' k → HandlerOK a' c (k.run a' c)) : HandlerOK a c (p.finish c) := by
  cases p with
  | done r => exact h
  | stopped a' k =>
    obtain ⟨hstep, hdisc⟩ := hk a' k rfl
    refine ⟨AppStep.trans h hstep, fun d hd => ?_⟩
    by_cases hdc : d = c
    · exact .inl hdc
    · rw [← AppStep.names h d hdc]
      exact .inr ((hdisc d hd).resolve_left hdc)

end PartOK

/-! ## The commands -/

section Commands

variable (localTime : Int → Tm) {a : App} {c : Int} {name : String} {iss : Istream}

theorem joinCommand_ok : HandlerOK a c (joinCommand a c name iss) := by
  unfold joinCommand
  dsimp only
  repeat' apply HandlerOK.ite
  all_goals first
    | exact .reply _ (by simp)
    | exact ⟨.rooms_move a (.join _ _ _), disconnectsOK_of_sends (by simp)⟩

theorem createCommand_ok : HandlerOK a c (createCommand a c name iss) := by
  unfold createCommand
  dsimp only
  repeat' apply HandlerOK.ite
  all_goals first
    | exact .reply _ (by simp)
    | exact ⟨((AppStep.rooms_move a (.create _ _)).trans
        (.rooms_move _ (.join _ _ _))).print _ (by simp), disconnectsOK_of_sends (by simp)⟩

theorem leaveCommand_ok : HandlerOK a c (leaveCommand a c) := by
  unfold leaveCommand
  apply HandlerOK.ite
  · exact ⟨.rooms_move a (.join _ _ _), disconnectsOK_of_sends (by simp)⟩
  · exact .reply _ (by simp)

theorem whisperCommand_ok : HandlerOK a c (whisperCommand a c name iss) := by
  unfold whisperCommand
  dsimp only
  repeat' apply HandlerOK.ite
  all_goals exact .reply _ (by simp)

/-- The effects of `#kick` and `#ban`: messages, and the disconnection of the target. -/
theorem disconnectsOK_target {a : App} {n : String} (h : a.findClient n ≠ -1) (m₁ m₂ : String) :
    DisconnectsOK a c (sendToClient (a.findClient n) m₁ ++ [.disconnect (a.findClient n)] ++
      sendToClient c m₂) := by
  intro d hd
  simp only [List.mem_append, disconnect_not_mem_sendToClient, List.mem_singleton,
    Effect.disconnect.injEq, false_or, or_false] at hd
  exact .inr (hd ▸ App.findClient_isSome h)

theorem kickCommand_ok : HandlerOK a c (kickCommand a c name iss) := by
  unfold kickCommand
  dsimp only
  split
  · exact ⟨(AppStep.refl c a).print _ (by simp), disconnectsOK_target (by assumption) _ _⟩
  · exact .reply _ (by simp)

theorem banCommand_ok (srv : IOCPServer) : HandlerOK a c (banCommand a srv c name iss) := by
  unfold banCommand
  dsimp only
  split
  · split
    · exact ⟨(AppStep.controller a (a.connectionManager.ban _) rfl rfl
        fun _ h => (UnorderedSet.mem_insert _ _ _).2 (.inr h)).print _ (by simp),
        disconnectsOK_target (by assumption) _ _⟩
    · exact .reply _ (by simp)
  · exact .reply _ (by simp)

theorem muteCommand_ok (now : Int) : HandlerOK a c (muteCommand a c name iss now) := by
  unfold muteCommand
  dsimp only
  split
  · exact ⟨(AppStep.controller a (a.connectionManager.mute _ _ _) rfl rfl fun _ => id).print _ (by simp),
      disconnectsOK_of_sends (by simp)⟩
  · exact .reply _ (by simp)

theorem processCommand_ok (srv : IOCPServer) (cmd : String) (clk : Clock) :
    HandlerOK a c (processCommand localTime a srv c cmd clk) := by
  unfold processCommand
  dsimp only
  refine .ite ?exit (.ite ?help (.ite ?rooms (.ite ?join (.ite ?create (.ite ?leave (.ite ?online
    (.ite ?whisper (.ite ?history (.ite ?kick (.ite ?ban (.ite ?mute ?unknown)))))))))))
  case exit => exact ⟨.refl c a, fun d hd => .inl (by simpa using hd)⟩
  case join => exact joinCommand_ok
  case create => exact createCommand_ok
  case leave => exact leaveCommand_ok
  case whisper => exact whisperCommand_ok
  case kick => exact kickCommand_ok
  case ban => exact banCommand_ok srv
  case mute => exact muteCommand_ok _
  all_goals exact .reply _ (by simp)

theorem registerName_ok (msg : String) : HandlerOK a c (registerName a c msg) :=
  ⟨(AppStep.setClientName _ c _).print _ (by simp), disconnectsOK_of_sends (by simp [registerName])⟩

theorem broadcastSend_ok (name room message : String) :
    HandlerOK a c (broadcastSend a c name room message) :=
  ⟨(AppStep.refl c a).print _ (by simp), disconnectsOK_of_sends (by simp [broadcastSend])⟩

/-- The rest of `HandleMessage` from where it stopped. -/
theorem Resume.run_ok {k : Resume} (hk : ∀ ip, k ≠ .admitted ip)
    (hr : ∀ name room, k ≠ .releasing name room) : HandlerOK a c (k.run a c) := by
  cases k with
  | admitted ip => exact absurd rfl (hk ip)
  | naming msg => exact registerName_ok msg
  | stored name room message => exact broadcastSend_ok name room message
  | releasing name room => exact absurd rfl (hr name room)

theorem broadcastToRoom_ok (message : String) (clk : Clock) :
    HandlerOK a c (broadcastToRoom localTime a c message clk) :=
  PartOK.finish (AppStep.store a _) fun _ _ h => by cases h; exact broadcastSend_ok _ _ _

@[simp] theorem recordMessage_currentConnections (cm : ConnectionManager) (c now : Int) :
    (cm.recordMessage c now).currentConnections = cm.currentConnections := rfl

@[simp] theorem recordMessage_config (cm : ConnectionManager) (c now : Int) :
    (cm.recordMessage c now).config = cm.config := rfl

/-- The first part of `HandleMessage`: up to its stop it asks only the controller, or the
store; a command runs whole. -/
theorem messageBegin_ok (srv : IOCPServer) (message : String) (clk : Clock) :
    PartOK a c (messageBegin localTime a srv c message clk) := by
  unfold messageBegin
  dsimp only
  refine .ite (HandlerOK.reply _ (by simp))
    (.ite ?limited (.ite ?muted (.ite ?register (.ite ?command ?chat))))
  case limited => exact .controller (by simp) (by simp) (by simp) (HandlerOK.reply _ (by simp))
  case muted => exact .controller (by simp) (by simp) (by simp) (HandlerOK.reply _ (by simp))
  case register => exact .controller (by simp) (by simp) (by simp) (AppStep.refl c _)
  case command => exact .controller (by simp) (by simp) (by simp) (processCommand_ok _ _ _ _)
  case chat => exact .controller (by simp) (by simp) (by simp) (AppStep.store _ _)

/-- Where `HandleMessage` stops, after the rate limit and the mute check: at the registration
of the trimmed chunk of a client whose name is the placeholder, or after storing it under the
sender's name and room. Either way the chunk does not start with `#`. -/
theorem messageBegin_stopped {srv : IOCPServer} {message : String} {clk : Clock} {a' : App}
    {k : Resume} (h : messageBegin localTime a srv c message clk = .stopped a' k) :
    (trimTrailing message).front ≠ '#' ∧
      let cm := (((a.connectionManager.allowMessage c clk.steady).2.recordMessage c
        clk.steady).isMuted c clk.steady).2
      (k = .naming (trimTrailing message) ∧ a.getClientName c = "User#" ++ toString c ∧
        a' = { a with connectionManager := cm }) ∨
      (k = .stored (a.getClientName c) (a.chatRooms.getClientRoom c) (trimTrailing message) ∧
        a' = { a with
          connectionManager := cm
          messageStore := a.messageStore.store localTime
            ⟨c, a.getClientName c, a.chatRooms.getClientRoom c, trimTrailing message, clk.system⟩
            clk.system }) := by
  unfold messageBegin broadcastStore at h
  dsimp only at h
  split_ifs at h with h₁ h₂ h₃ h₄ h₅ <;> cases h
  · exact ⟨h₄.2, .inl ⟨rfl, h₄.1, rfl⟩⟩
  · exact ⟨h₅, .inr ⟨rfl, rfl⟩⟩

/-- **`HandleMessage`** moves only its client's rooms, names only its client, prints no
`connected` line, keeps the connection count, and disconnects only its client (the `exit` command) or
a named client (`#kick`, `#ban`). -/
theorem handleMessage_ok (srv : IOCPServer) (message : String) (clk : Clock) :
    HandlerOK a c (handleMessage localTime a srv c message clk) :=
  (messageBegin_ok localTime srv message clk).finish fun _ k hk =>
    Resume.run_ok (fun ip he => by
      rcases (messageBegin_stopped localTime hk).2 with ⟨h, -⟩ | ⟨h, -⟩ <;> exact absurd (he ▸ h) nofun)
      fun name room he => by
        rcases (messageBegin_stopped localTime hk).2 with ⟨h, -⟩ | ⟨h, -⟩ <;> exact absurd (he ▸ h) nofun

end Commands

/-! ## Connect, disconnect, sweep -/

section Lifecycle

variable {a : App} {c : Int}

/-- The first part of `HandleConnect`: it refuses (and asks for the client's disconnection), or
it stops after `AllowConnection` has seen the count below the limit, having asked only the
controller. -/
theorem connectAllow_spec (a : App) (srv : IOCPServer) (c : Int) (sock : Socket) (now : Int) :
    (∃ r, connectAllow a srv c sock now = .done r ∧ r.1.clientNames = a.clientNames ∧
      r.1.chatRooms = a.chatRooms ∧ r.1.log = a.log ++ [.rejected (srv.socketAddress sock)] ∧
      r.2 = [.disconnect c] ∧
      r.1.connectionManager.currentConnections = a.connectionManager.currentConnections) ∨
    ∃ cm, connectAllow a srv c sock now =
        .stopped { a with connectionManager := cm } (.admitted (srv.socketAddress sock)) ∧
      cm.currentConnections = a.connectionManager.currentConnections ∧
      cm.config = a.connectionManager.config ∧ cm.bannedIps = a.connectionManager.bannedIps ∧
      a.connectionManager.currentConnections < a.connectionManager.config.maxTotalConnections := by
  unfold connectAllow
  dsimp only
  split
  · exact .inl ⟨_, rfl, rfl, rfl, rfl, rfl, by simp [App.print]⟩
  · rename_i h
    exact .inr ⟨_, rfl, by simp, by simp, by simp,
      ConnectionManager.allowConnection_lt (by simpa using h)⟩

/-- The rest of `HandleConnect` for an admitted client: it counts the connection, puts the
client in `general`, prints its `connected` line and disconnects no one. -/
theorem connectAdmitted_spec (a : App) (c : Int) (ip : String) :
    let r := connectAdmitted a c ip
    r.1.clientNames = a.clientNames ∧ r.1.chatRooms = (a.chatRooms.joinRoom "general" c).2 ∧
      r.1.log = a.log ++ [.connected c ip] ∧ (∀ d, Effect.disconnect d ∉ r.2) ∧
      r.1.connectionManager = a.connectionManager.onConnect :=
  ⟨rfl, rfl, rfl, by simp [connectAdmitted], rfl⟩

/-- `HandleConnect` either refuses (and asks for the client's disconnection) or admits: it
counts the connection, below the limit, puts the client in `general`, and prints its
`connected` line. -/
theorem handleConnect_spec (a : App) (srv : IOCPServer) (c : Int) (sock : Socket) (now : Int) :
    let r := handleConnect a srv c sock now
    r.1.clientNames = a.clientNames ∧
    ((r.1.chatRooms = a.chatRooms ∧ r.1.log = a.log ++ [.rejected (srv.socketAddress sock)] ∧
        r.2 = [.disconnect c] ∧
        r.1.connectionManager.currentConnections = a.connectionManager.currentConnections) ∨
      (r.1.chatRooms = (a.chatRooms.joinRoom "general" c).2 ∧
        r.1.log = a.log ++ [.connected c (srv.socketAddress sock)] ∧
        (∀ d, Effect.disconnect d ∉ r.2) ∧
        r.1.connectionManager.currentConnections = a.connectionManager.currentConnections + 1 ∧
        a.connectionManager.currentConnections < a.connectionManager.config.maxTotalConnections)) := by
  rw [handleConnect]
  rcases connectAllow_spec a srv c sock now with ⟨r, hr, hn, hrooms, hlog, heff, hconn⟩ |
    ⟨cm, hcm, hconn, -, -, hlt⟩
  · rw [hr]; exact ⟨hn, .inl ⟨hrooms, hlog, heff, hconn⟩⟩
  · rw [hcm]
    obtain ⟨hn, hrooms, hlog, heff, hcm'⟩ := connectAdmitted_spec { a with connectionManager := cm } c
      (srv.socketAddress sock)
    exact ⟨hn, .inr ⟨hrooms, hlog, heff, by
      simp [Part.finish, Resume.run, hcm', ConnectionManager.onConnect, hconn], hlt⟩⟩

/-- `HandleDisconnect` takes the client out of its room, forgets its name, releases one
connection, and prints its `disconnected` line; it disconnects no one. -/
theorem handleDisconnect_spec (a : App) (c : Int) :
    let r := handleDisconnect a c
    r.1.chatRooms = a.chatRooms.leaveRoom c ∧ r.1.clientNames = a.clientNames.erase c ∧
      r.1.log = a.log ++ [.disconnected c (a.getClientName c)] ∧ (∀ d, Effect.disconnect d ∉ r.2) ∧
      r.1.connectionManager = a.connectionManager.onDisconnect := by
  rw [handleDisconnect_eq]
  refine ⟨rfl, rfl, rfl, fun d => ?_, rfl⟩
  dsimp only
  split <;> simp

/-- The rest of `HandleDisconnect` after `OnDisconnect` forgets the client's name and prints its
`disconnected` line; it disconnects no one and leaves the rooms and the controller alone. -/
theorem disconnectRest_spec (a : App) (c : Int) (name room : String) :
    let r := disconnectRest a c name room
    r.1.chatRooms = a.chatRooms ∧ r.1.clientNames = a.clientNames.erase c ∧
      r.1.log = a.log ++ [.disconnected c name] ∧ (∀ d, Effect.disconnect d ∉ r.2) ∧
      r.1.connectionManager = a.connectionManager := by
  refine ⟨rfl, rfl, rfl, fun d => ?_, rfl⟩
  dsimp only [disconnectRest]
  split <;> simp

/-- The sweep prints only `timed out` lines, and disconnects clients of the table. -/
theorem sweep_spec (a : App) (srv : IOCPServer) (now : Int) :
    let r := sweep a srv now
    r.1.chatRooms = a.chatRooms ∧ r.1.clientNames = a.clientNames ∧
      r.1.connectionManager = a.connectionManager ∧
      (∃ L, r.1.log = a.log ++ L ∧ ∀ c ip, LogLine.connected c ip ∉ L) ∧
      ∀ d, Effect.disconnect d ∈ r.2 → ∃ info ∈ srv.getAllClients, info.id = d := by
  refine ⟨rfl, rfl, rfl, ⟨_, rfl, by simp⟩, fun d hd => ?_⟩
  simp only [sweep, List.mem_map, Effect.disconnect.injEq, ConnectionManager.checkTimeouts,
    List.mem_filterMap] at hd
  obtain ⟨_, ⟨info, hinfo, hsome⟩, rfl⟩ := hd
  refine ⟨info, hinfo, ?_⟩
  split at hsome
  · split at hsome
    · exact Option.some.inj hsome
    · cases hsome
  · cases hsome

end Lifecycle


/-! ## What commands and chat lines leave alone

No command and no chat line names a client, refreshes an activity, or prints a registration:
only the registration branch of `HandleMessage` and `RecordMessage` do. -/

/-- The names, the recorded activities and the registration lines are kept. -/
structure Keeps (a a' : App) : Prop where
  names : a'.clientNames = a.clientNames
  activity : a'.connectionManager.lastActivity = a.connectionManager.lastActivity
  log : ∃ L, a'.log = a.log ++ L ∧ ∀ c n, LogLine.registered c n ∉ L

namespace Keeps

variable {a a₁ : App}

theorem refl (a : App) : Keeps a a := ⟨rfl, rfl, [], by simp, by simp⟩

theorem print (h : Keeps a a₁) (l : LogLine) (hl : ∀ c n, l ≠ .registered c n) :
    Keeps a (a₁.print l) :=
  ⟨h.names, h.activity, by
    obtain ⟨L, hL, hn⟩ := h.log
    refine ⟨L ++ [l], by simp [App.print, hL], fun c n hm => ?_⟩
    rcases List.mem_append.1 hm with hm | hm
    exacts [hn c n hm, hl c n (List.mem_singleton.1 hm).symm]⟩

theorem rooms (a : App) (m : ChatRoomManager) : Keeps a { a with chatRooms := m } :=
  ⟨rfl, rfl, [], by simp, by simp⟩

theorem controller (a : App) (cm : ConnectionManager)
    (h : cm.lastActivity = a.connectionManager.lastActivity) :
    Keeps a { a with connectionManager := cm } :=
  ⟨rfl, h, [], by simp, by simp⟩

theorem store (a : App) (st : MessageStore) : Keeps a { a with messageStore := st } :=
  ⟨rfl, rfl, [], by simp, by simp⟩

theorem ite {p : Prop} [Decidable p] {x y : App × List Effect} (hx : Keeps a x.1)
    (hy : Keeps a y.1) : Keeps a (if p then x else y).1 := by
  split <;> assumption

end Keeps

section Commands

variable (localTime : Int → Tm) {a : App} {c : Int} {name : String} {iss : Istream}

theorem processCommand_keeps (srv : IOCPServer) (cmd : String) (clk : Clock) :
    Keeps a (processCommand localTime a srv c cmd clk).1 := by
  unfold processCommand joinCommand createCommand leaveCommand whisperCommand kickCommand
    banCommand muteCommand
  dsimp only
  repeat' apply Keeps.ite
  all_goals first
    | exact .refl a
    | exact .rooms a _
    | exact (Keeps.rooms a _).print _ (by simp)
    | exact (Keeps.refl a).print _ (by simp)
    | exact (Keeps.controller a _ (by rfl)).print _ (by simp)
    | split
      · exact (Keeps.controller a _ (by rfl)).print _ (by simp)
      · exact .refl a

theorem broadcastSend_keeps (name room message : String) :
    Keeps a (broadcastSend a c name room message).1 :=
  (Keeps.refl a).print _ (by simp)

theorem broadcastToRoom_keeps (message : String) (clk : Clock) :
    Keeps a (broadcastToRoom localTime a c message clk).1 :=
  (Keeps.store a _).print _ (by simp)

end Commands

end ChatServer
