import ChatServer.Spec.Basic

/-!
# The room manager

`ChatRoomManager` of `chat_room.h` / `chat_room.cpp`: a map from room names to rooms and a
map from client ids to the name of the client's room. Every operation takes the manager-wide
`rooms_mutex` for its whole body, so each is one atomic step here, returning its result
with the new state.

`Room::created_at` is not modelled: no operation reads it.
-/

namespace ChatServer

/-- A chat room (`struct Room`). -/
structure Room where
  name : String
  topic : String
  members : UnorderedSet Int
  ownerId : Int
  isPrivate : Bool
  password : String

/-- The constructor `Room(room_name = "", owner = 0)`. -/
def Room.new (roomName : String := "") (owner : Int := 0) : Room :=
  { name := roomName, topic := "", members := .empty, ownerId := owner, isPrivate := false,
    password := "" }

/-- `members.insert(c)` on a room. -/
def Room.addMember (c : Int) (r : Room) : Room := { r with members := r.members.insert c }

/-- `members.erase(c)` on a room. -/
def Room.removeMember (c : Int) (r : Room) : Room := { r with members := r.members.erase c }

@[simp] theorem Room.mem_addMember (c c' : Int) (r : Room) :
    c ∈ (r.addMember c').members ↔ c = c' ∨ c ∈ r.members := UnorderedSet.mem_insert _ _ _

@[simp] theorem Room.mem_removeMember (c c' : Int) (r : Room) :
    c ∈ (r.removeMember c').members ↔ c ≠ c' ∧ c ∈ r.members := UnorderedSet.mem_erase _ _ _

/-- The state of a `ChatRoomManager`. -/
structure ChatRoomManager where
  rooms : UnorderedMap String Room
  clientRooms : UnorderedMap Int String

namespace ChatRoomManager

/-- The constructor: the room `general`, owned by the administrator `0`. -/
def new : ChatRoomManager :=
  { rooms := UnorderedMap.empty.set "general"
      { Room.new "general" 0 with topic := "Welcome to the chat server!" }
    clientRooms := .empty }

/-- `CreateRoom`: fails when the name is taken. -/
def createRoom (m : ChatRoomManager) (name : String) (ownerId : Int)
    (isPrivate : Bool := false) (password : String := "") : Bool × ChatRoomManager :=
  match m.rooms.find? name with
  | some _ => (false, m)
  | none =>
    (true, { m with
      rooms := m.rooms.set name { Room.new name ownerId with isPrivate, password } })

/-- One iteration of the loop of `DeleteRoom` that moves the members to `general`:
`client_rooms[c] = "general"; rooms["general"].members.insert(c)`. -/
def moveToGeneral (m : ChatRoomManager) (c : Int) : ChatRoomManager :=
  { clientRooms := m.clientRooms.set c "general"
    rooms := m.rooms.alter "general" (Room.new) (Room.addMember c) }

/-- `DeleteRoom`: only the owner or the administrator `0` may delete a room other than
`general`; its members move to `general`. -/
def deleteRoom (m : ChatRoomManager) (name : String) (requesterId : Int) :
    Bool × ChatRoomManager :=
  if name = "general" then (false, m)
  else
    match m.rooms.find? name with
    | none => (false, m)
    | some room =>
      if room.ownerId ≠ requesterId ∧ requesterId ≠ 0 then (false, m)
      else
        let m' := room.members.elems.foldl moveToGeneral m
        (true, { m' with rooms := m'.rooms.erase name })

/-- The rooms after a client leaves its current room, if it has one and the room exists. -/
def leaveCurrent (m : ChatRoomManager) (clientId : Int) : UnorderedMap String Room :=
  match m.clientRooms.find? clientId with
  | some current => m.rooms.modify current (Room.removeMember clientId)
  | none => m.rooms

/-- `JoinRoom`: checks the password of a private room, leaves the current room first. -/
def joinRoom (m : ChatRoomManager) (name : String) (clientId : Int)
    (password : String := "") : Bool × ChatRoomManager :=
  match m.rooms.find? name with
  | none => (false, m)
  | some room =>
    if room.isPrivate ∧ room.password ≠ password then (false, m)
    else
      (true, { rooms := (m.leaveCurrent clientId).modify name (Room.addMember clientId)
               clientRooms := m.clientRooms.set clientId name })

/-- `LeaveRoom`. -/
def leaveRoom (m : ChatRoomManager) (clientId : Int) : ChatRoomManager :=
  match m.clientRooms.find? clientId with
  | none => m
  | some _ => { rooms := m.leaveCurrent clientId, clientRooms := m.clientRooms.erase clientId }

/-- `GetClientRoom`: a client with no recorded room is reported in `general`. -/
def getClientRoom (m : ChatRoomManager) (clientId : Int) : String :=
  (m.clientRooms.find? clientId).getD "general"

/-- `SetTopic`: only the owner or the administrator may set it. -/
def setTopic (m : ChatRoomManager) (roomName topic : String) (requesterId : Int) :
    Bool × ChatRoomManager :=
  match m.rooms.find? roomName with
  | none => (false, m)
  | some room =>
    if room.ownerId ≠ requesterId ∧ requesterId ≠ 0 then (false, m)
    else (true, { m with rooms := m.rooms.modify roomName fun r => { r with topic } })

/-- `ListRooms`: the public rooms, sorted. -/
def listRooms (m : ChatRoomManager) : List String :=
  ((m.rooms.entries.filter fun p => !p.2.isPrivate).map Prod.fst).mergeSort
    fun a b => decide (a ≤ b)

/-- `GetRoomMembers`. -/
def getRoomMembers (m : ChatRoomManager) (roomName : String) : List Int :=
  match m.rooms.find? roomName with
  | none => []
  | some r => r.members.elems

/-- `RoomExists`. -/
def roomExists (m : ChatRoomManager) (name : String) : Bool := (m.rooms.find? name).isSome

/-- `GetRoomInfo`. -/
def getRoomInfo (m : ChatRoomManager) (name : String) : String :=
  match m.rooms.find? name with
  | none => "Room not found"
  | some r =>
    "Room: #" ++ r.name ++ "\n" ++ "Topic: " ++ r.topic ++ "\n" ++
      "Members: " ++ toString r.members.size ++ "\n" ++
      "Private: " ++ (if r.isPrivate then "Yes" else "No") ++ "\n"

/-- `GetRoommates`: an unregistered client gets the members of `general`. -/
def getRoommates (m : ChatRoomManager) (clientId : Int) : List Int :=
  match m.clientRooms.find? clientId with
  | none =>
    match m.rooms.find? "general" with
    | some g => g.members.elems
    | none => []
  | some r =>
    match m.rooms.find? r with
    | some room => room.members.elems
    | none => []

/-! ## Operation sequences -/

/-- The mutating operations of the manager, with their arguments. -/
inductive Op where
  | createRoom (name : String) (ownerId : Int) (isPrivate : Bool) (password : String)
  | deleteRoom (name : String) (requesterId : Int)
  | joinRoom (name : String) (clientId : Int) (password : String)
  | leaveRoom (clientId : Int)
  | setTopic (roomName topic : String) (requesterId : Int)

/-- The state after one operation. -/
def apply (m : ChatRoomManager) : Op → ChatRoomManager
  | .createRoom name o p pw => (m.createRoom name o p pw).2
  | .deleteRoom name q => (m.deleteRoom name q).2
  | .joinRoom name c pw => (m.joinRoom name c pw).2
  | .leaveRoom c => m.leaveRoom c
  | .setTopic r t q => (m.setTopic r t q).2

/-- The state after a sequence of operations. -/
def run (m : ChatRoomManager) (ops : List Op) : ChatRoomManager := ops.foldl apply m

/-- Client `c` is a member of the room named `r`, and that room exists. -/
def IsMember (m : ChatRoomManager) (c : Int) (r : String) : Prop :=
  ∃ room, m.rooms.find? r = some room ∧ c ∈ room.members

end ChatRoomManager

end ChatServer
