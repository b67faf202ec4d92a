import ChatServer.Proof.Lifecycle

/-!
# Room membership of connected clients

A client `HandleConnect` admitted joins `general`, and until its `HandleDisconnect` runs it
only moves between rooms; while it is registered with the transport no `on_disconnect` of it
has been queued. So an admitted, registered client is a member of exactly one room, the one
`GetClientRoom` names. The converse fails by design: `Stop` clears the client table without
any callback, and the members stay in their rooms.

In every run the rooms keep the membership invariant of `ChatRoomManager`, and every room is
public: the server creates rooms with the default privacy, so the password check of
`JoinRoom` never refuses. No command calls `DeleteRoom`, and `JoinRoom` and `LeaveRoom` only
change the members of a room, so **a room, once created, is listed by `#rooms` in every later
state** (`rooms_never_deleted`), even when its last member has left; and `#join` of a room
other than the client's own fails only for a room that does not exist (`rooms_public`).
-/

namespace ChatServer.ChatRoomManager

variable {m m' : ChatRoomManager} {x : String}

theorem joinRoom_keeps (h : (m.rooms.find? x).isSome) (r : String) (c : Int) (pw : String) :
    ((m.joinRoom r c pw).2.rooms.find? x).isSome := by
  unfold joinRoom
  split
  · exact h
  · split
    · exact h
    · rwa [isSome_modify, isSome_leaveCurrent]

theorem leaveRoom_keeps (h : (m.rooms.find? x).isSome) (c : Int) :
    ((m.leaveRoom c).rooms.find? x).isSome := by
  unfold leaveRoom
  split
  · exact h
  · rwa [isSome_leaveCurrent]

theorem createRoom_keeps (h : (m.rooms.find? x).isSome) (r : String) (o : Int) (p : Bool)
    (pw : String) : ((m.createRoom r o p pw).2.rooms.find? x).isSome := by
  unfold createRoom
  split
  · exact h
  · simp only [UnorderedMap.find?_set]
    split <;> simp [h]

theorem RoomsMove.keeps {c : Int} (hm : RoomsMove c m m') (h : (m.rooms.find? x).isSome) :
    (m'.rooms.find? x).isSome := by
  cases hm with
  | join r pw => exact joinRoom_keeps h r c pw
  | create r => exact createRoom_keeps h r c false ""

/-- A handler's moves of its client keep every room. -/
theorem RoomsMove.keeps_star {c : Int} (hm : Relation.ReflTransGen (RoomsMove c) m m')
    (h : (m.rooms.find? x).isSome) : (m'.rooms.find? x).isSome := by
  induction hm with
  | refl => exact h
  | tail _ hmove ih => exact hmove.keeps ih

/-- With every room public, `ListRooms` lists every room that exists. -/
theorem mem_listRooms (hp : AllPublic m.rooms) (h : (m.rooms.find? x).isSome) :
    x ∈ m.listRooms := by
  obtain ⟨g, hg⟩ := Option.isSome_iff_exists.1 h
  simp only [listRooms, List.mem_mergeSort, List.mem_map, List.mem_filter]
  exact ⟨(x, g), ⟨UnorderedMap.mem_of_find? hg, by simp [hp x g hg]⟩, rfl⟩

end ChatServer.ChatRoomManager

namespace ChatServer

open ChatRoomManager

/-- The last write of `SendToClient` carries the message, newline added: it starts as the
message does. -/
theorem sendToClient_getLast? (c : Int) {m : String} (hm : m ≠ "") :
    ∃ m', (sendToClient c m).getLast? = some (.send c m') ∧ m'.data.head? = m.data.head? := by
  unfold sendToClient
  rw [if_neg hm]
  split
  · exact ⟨m, rfl, rfl⟩
  · refine ⟨m ++ "\n", rfl, ?_⟩
    obtain ⟨_ | ⟨ch, l⟩⟩ := m
    · exact absurd rfl hm
    · rfl

/-- With every room public, `#join` of a room other than the client's answers `Failed to join
room` exactly when the room does not exist: otherwise its last write is `Joined #<room>`. -/
theorem joinCommand_failed_iff {a : App} (hp : AllPublic a.chatRooms.rooms) (c : Int)
    (name : String) (iss : Istream) (hx : (iss.readWord.1).getD "" ≠ "")
    (hold : a.chatRooms.getClientRoom c ≠ (iss.readWord.1).getD "") :
    (joinCommand a c name iss).2 = sendToClient c "Failed to join room. Does it exist?" ↔
      a.chatRooms.rooms.find? ((iss.readWord.1).getD "") = none := by
  cases hr : a.chatRooms.rooms.find? ((iss.readWord.1).getD "") with
  | none => simp [joinCommand, hx, hold, ChatRoomManager.joinRoom, hr]
  | some g =>
    simp only [joinCommand, hx, hold, if_false, joinRoom_of_allPublic hp hr, if_true,
      reduceCtorEq, iff_false]
    intro h
    obtain ⟨m', hl, hh⟩ := sendToClient_getLast? c (m := "Joined #" ++ (iss.readWord.1).getD "")
      (by simp [String.ext_iff])
    have hlast := congrArg List.getLast? h
    have hf : (sendToClient c "Failed to join room. Does it exist?").getLast? =
        some (.send c "Failed to join room. Does it exist?\n") := rfl
    rw [List.getLast?_append, hl, hf, Option.or_some, Option.some.injEq, Effect.send.injEq] at hlast
    rw [hlast.2] at hh
    simp at hh

end ChatServer

namespace ChatServer.System

open ChatRoomManager

/-- A client is admitted, then the server stops. -/
def stopAfterConnect : List Action :=
  [.accept 1 ⟨"10.0.0.1", 5000⟩ true, .register true 0, .take 0, .finish 0 ⟨0, 0⟩ [], .stop]

/-- A client is admitted. -/
def connectOnce : List Action := [.accept 1 ⟨"10.0.0.1", 5000⟩ true, .register true 0, .take 0, .finish 0 ⟨0, 0⟩ []]

/-- **The rooms stay consistent in every run of the server**: `general` exists, a client is a
member of a room exactly when `client_rooms` maps it there, and `client_rooms` maps clients
only to rooms that exist. -/
theorem rooms_consistent {lt : Int → Tm} {conn : CMConfig} {poolSize processors : Nat}
    {fs : FileSystem} {wall : Int} {acts : List Action} {s : System}
    (hr : (init lt conn poolSize processors fs wall).run lt acts = some s) : s.app.chatRooms.Inv :=
  ((inv_init lt conn poolSize processors fs wall).run hr).rooms

/-- A client connects, names itself `alice`, and creates the room `dev`. -/
def createRoomAfterName : List Action :=
  [.accept 1 ⟨"10.0.0.1", 5000⟩ true, .register true 0, .take 0, .finish 0 ⟨0, 0⟩ [],
    .complete 0 (.ok "alice\n") true 0, .take 0, .finish 0 ⟨0, 0⟩ [],
    .complete 1 (.ok "\x23create dev\n") true 0, .take 0, .finish 0 ⟨0, 0⟩ []]

theorem rooms_consistent_after_create :
    ∃ s, boot.run noonClock createRoomAfterName = some s ∧
      s.app.chatRooms.getClientRoom 1 = "dev" ∧ s.app.chatRooms.Inv :=
  have hr : boot.run noonClock createRoomAfterName = some _ := (Option.some_get (by decide)).symm
  ⟨_, hr, by decide, rooms_consistent hr⟩

/-- **Every room is public in every run**, so the password of `JoinRoom` is never checked: a
`JoinRoom` of a room that exists succeeds, and `#join` of a room other than the client's own
answers `Failed to join room. Does it exist?` exactly when the room does not exist. The server
calls `CreateRoom` only with its default `is_private = false`. -/
theorem rooms_public {lt : Int → Tm} {conn : CMConfig} {poolSize processors : Nat}
    {fs : FileSystem} {wall : Int} {acts : List Action} {s : System}
    (hr : (init lt conn poolSize processors fs wall).run lt acts = some s) :
    AllPublic s.app.chatRooms.rooms ∧
      (∀ x c pw, (s.app.chatRooms.rooms.find? x).isSome →
        (s.app.chatRooms.joinRoom x c pw).1 = true) ∧
      ∀ c name (iss : Istream), (iss.readWord.1).getD "" ≠ "" →
        s.app.chatRooms.getClientRoom c ≠ (iss.readWord.1).getD "" →
        ((joinCommand s.app c name iss).2 =
            sendToClient c "Failed to join room. Does it exist?" ↔
          s.app.chatRooms.rooms.find? ((iss.readWord.1).getD "") = none) :=
  have hp := ((inv_init lt conn poolSize processors fs wall).run hr).all_public
  ⟨hp, fun _ c pw hx => joinRoom_of_allPublic hp (Option.isSome_iff_exists.1 hx).choose_spec c pw,
    fun c name iss hx hold => joinCommand_failed_iff hp c name iss hx hold⟩

theorem rooms_public_after_create :
    ∃ s, boot.run noonClock createRoomAfterName = some s ∧
      (s.app.chatRooms.rooms.find? "dev").isSome ∧ AllPublic s.app.chatRooms.rooms ∧
      (∀ x c pw, (s.app.chatRooms.rooms.find? x).isSome →
        (s.app.chatRooms.joinRoom x c pw).1 = true) ∧
      ∀ c name (iss : Istream), (iss.readWord.1).getD "" ≠ "" →
        s.app.chatRooms.getClientRoom c ≠ (iss.readWord.1).getD "" →
        ((joinCommand s.app c name iss).2 =
            sendToClient c "Failed to join room. Does it exist?" ↔
          s.app.chatRooms.rooms.find? ((iss.readWord.1).getD "") = none) :=
  have hr : boot.run noonClock createRoomAfterName = some _ := (Option.some_get (by decide)).symm
  ⟨_, hr, by decide, rooms_public hr⟩

/-- No step deletes a room. -/
theorem step_keeps_room {lt : Int → Tm} {s s' : System} {a : Action}
    (hs : s.step lt a = some s') {x : String} (h : (s.app.chatRooms.rooms.find? x).isSome) :
    (s'.app.chatRooms.rooms.find? x).isSome := by
  rcases step_app hs with he | ⟨clk, t, k, hb⟩ | ⟨clk, t, he⟩ | ⟨c, k, he⟩ | ⟨now, he⟩
  · rwa [he]
  · rcases (beginTask_stopped lt hb).1 with he | ⟨c, -, he⟩
    · rwa [he]
    · rw [he]; exact leaveRoom_keeps h c
  · rw [he]
    cases t with
    | onConnect c sock =>
      rcases (handleConnect_spec s.app s.server c sock clk.steady).2 with ⟨hr, -⟩ | ⟨hr, -⟩ <;>
        simp only [runTask, hr]
      exacts [h, joinRoom_keeps h _ _ _]
    | onMessage c m =>
      exact RoomsMove.keeps_star (handleMessage_ok lt (a := s.app) (c := c) s.server m clk).1.rooms h
    | onDisconnect c =>
      simp only [runTask, (handleDisconnect_spec s.app c).1]
      exact leaveRoom_keeps h c
  · rw [he]
    cases k with
    | admitted ip =>
      rw [Resume.run, (connectAdmitted_spec s.app c ip).2.1]
      exact joinRoom_keeps h _ _ _
    | naming msg => exact RoomsMove.keeps_star (registerName_ok (a := s.app) (c := c) msg).1.rooms h
    | stored name room message =>
      exact RoomsMove.keeps_star (broadcastSend_ok (a := s.app) (c := c) name room message).1.rooms h
    | releasing name room => rwa [Resume.run, (disconnectRest_spec _ c name room).1]
  · rwa [he]

/-- **Rooms are never deleted.** In every run from the state `main` starts, a room that exists
exists in every later state, and `#rooms` lists it, whether or not it has members left. -/
theorem rooms_never_deleted {lt : Int → Tm} {conn : CMConfig} {poolSize processors : Nat}
    {fs : FileSystem} {wall : Int} {acts acts' : List Action} {s s' : System}
    (hr : (init lt conn poolSize processors fs wall).run lt acts = some s)
    (hr' : s.run lt acts' = some s') {x : String} (hx : (s.app.chatRooms.rooms.find? x).isSome) :
    (s'.app.chatRooms.rooms.find? x).isSome ∧ x ∈ s'.app.chatRooms.listRooms := by
  have hkept : (s'.app.chatRooms.rooms.find? x).isSome :=
    run_preserves (P := fun s => (s.app.chatRooms.rooms.find? x).isSome)
      (fun hs h => step_keeps_room hs h) hr' hx
  have hinv := (inv_init lt conn poolSize processors fs wall).run
    (by rw [run_append, hr]; exact hr')
  exact ⟨hkept, mem_listRooms hinv.all_public hkept⟩

/-- After `createRoomAfterName`, client 1 leaves `dev` with `#leave`. -/
def leaveDev : List Action := [.complete 1 (.ok "#leave\n") true 0, .take 0, .finish 0 ⟨0, 0⟩ []]

theorem rooms_never_deleted_after_leave :
    ∃ s s', boot.run noonClock createRoomAfterName = some s ∧ s.run noonClock leaveDev = some s' ∧
      (s.app.chatRooms.rooms.find? "dev").isSome ∧ s'.app.chatRooms.getRoomMembers "dev" = [] ∧
      (s'.app.chatRooms.rooms.find? "dev").isSome ∧ "dev" ∈ s'.app.chatRooms.listRooms :=
  have hr : boot.run noonClock createRoomAfterName = some _ := (Option.some_get (by decide)).symm
  have hr' : ((boot.run noonClock createRoomAfterName).get (by decide)).run noonClock leaveDev =
      some _ := (Option.some_get (by decide)).symm
  ⟨_, _, hr, hr', by decide, by decide, rooms_never_deleted hr hr' (by decide)⟩

end ChatServer.System
