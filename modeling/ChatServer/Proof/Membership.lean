import ChatServer.Spec.ChatRoom

/-!
# The membership invariant of the room manager

`Inv`: the room `general` exists; client `c` is a member of room `r` exactly when
`client_rooms` maps `c` to `r`; and `client_rooms` names existing rooms only.

* `Inv.apply`: every operation keeps `Inv`, whatever its arguments.
* `membership_invariant`: **after every sequence of operations from the constructor**, `Inv`
  holds; so a client is a member of at most one room, and `GetClientRoom` names it.
-/

namespace ChatServer.ChatRoomManager

variable {m : ChatRoomManager}

/-- The membership invariant. -/
structure Inv (m : ChatRoomManager) : Prop where
  general : (m.rooms.find? "general").isSome
  member_iff : ∀ c r, m.IsMember c r ↔ m.clientRooms.find? c = some r
  room_exists : ∀ c r, m.clientRooms.find? c = some r → (m.rooms.find? r).isSome

theorem inv_new : new.Inv where
  general := by simp [new]
  member_iff c r := by
    simp only [IsMember, new, UnorderedMap.find?_set, UnorderedMap.find?_empty]
    split <;> simp [Room.new]
  room_exists c r h := by simp [new] at h

/-! ## Effects of the operations -/

theorem isSome_modify (rs : UnorderedMap String Room) (k r : String) (f : Room → Room) :
    ((rs.modify k f).find? r).isSome = (rs.find? r).isSome := by
  simp only [UnorderedMap.find?_modify]; split <;> simp_all

theorem isSome_leaveCurrent (c : Int) (r : String) :
    ((m.leaveCurrent c).find? r).isSome = (m.rooms.find? r).isSome := by
  unfold leaveCurrent
  split
  · exact isSome_modify _ _ _ _
  · rfl

/-- After `leaveCurrent`, the client is in no room, and the other memberships are kept. -/
theorem isMember_leaveCurrent (h : m.Inv) (c c₀ : Int) (r : String) :
    (∃ room, (m.leaveCurrent c₀).find? r = some room ∧ c ∈ room.members) ↔
      c ≠ c₀ ∧ m.IsMember c r := by
  unfold leaveCurrent
  split
  · rename_i cur hcur
    simp only [UnorderedMap.find?_modify]
    split
    · subst r
      rcases hx : m.rooms.find? cur with _ | room <;> simp [IsMember, hx]
    · rename_i hr
      constructor
      · rintro hm
        refine ⟨?_, hm⟩
        rintro rfl
        exact hr (Option.some.inj (((h.member_iff _ _).1 hm).symm.trans hcur))
      · exact fun hm => hm.2
  · rename_i hnone
    constructor
    · rintro hm
      refine ⟨?_, hm⟩
      rintro rfl
      simp [(h.member_iff _ _).1 hm] at hnone
    · exact fun hm => hm.2

theorem Inv.createRoom (h : m.Inv) (name : String) (o : Int) (p : Bool) (pw : String) :
    (m.createRoom name o p pw).2.Inv := by
  unfold ChatRoomManager.createRoom
  split
  · exact h
  · rename_i hn
    refine ⟨?_, fun c r => ?_, fun c r hc => ?_⟩
    · simp only [UnorderedMap.find?_set]; split <;> simp [h.general]
    · by_cases hr : r = name
      · subst hr
        simp only [IsMember, UnorderedMap.find?_set, if_pos, Option.some.injEq, exists_eq_left',
          Room.new, UnorderedSet.not_mem_empty, false_iff]
        intro hc
        simpa [hn] using h.room_exists c _ hc
      · simpa [IsMember, hr] using h.member_iff c r
    · simp only [UnorderedMap.find?_set]
      split
      · rfl
      · exact h.room_exists c r hc

theorem Inv.setTopic (h : m.Inv) (room topic : String) (q : Int) :
    (m.setTopic room topic q).2.Inv := by
  unfold ChatRoomManager.setTopic
  split
  · exact h
  · split
    · exact h
    · refine ⟨?_, fun c r => ?_, fun c r hc => ?_⟩
      · rw [isSome_modify]; exact h.general
      · rw [← h.member_iff]
        simp only [IsMember, UnorderedMap.find?_modify]
        split
        · subst r; simp
        · rfl
      · rw [isSome_modify]; exact h.room_exists c r hc

theorem Inv.leaveRoom (h : m.Inv) (c₀ : Int) : (m.leaveRoom c₀).Inv := by
  unfold ChatRoomManager.leaveRoom
  split
  · exact h
  · refine ⟨?_, fun c r => ?_, fun c r hc => ?_⟩
    · rw [isSome_leaveCurrent]; exact h.general
    · simp only [IsMember] at *
      rw [isMember_leaveCurrent h, UnorderedMap.find?_erase, h.member_iff]
      split <;> simp_all
    · simp only [UnorderedMap.find?_erase] at hc
      split at hc
      · cases hc
      · rw [isSome_leaveCurrent]; exact h.room_exists c r hc

theorem Inv.joinRoom (h : m.Inv) (name : String) (c₀ : Int) (pw : String) :
    (m.joinRoom name c₀ pw).2.Inv := by
  unfold ChatRoomManager.joinRoom
  split
  · exact h
  · rename_i room hroom
    split
    · exact h
    · refine ⟨?_, fun c r => ?_, fun c r hc => ?_⟩
      · rw [isSome_modify, isSome_leaveCurrent]; exact h.general
      · simp only [IsMember, UnorderedMap.find?_modify, UnorderedMap.find?_set]
        split
        · subst r
          obtain ⟨room', hroom'⟩ := Option.isSome_iff_exists.1
            ((isSome_leaveCurrent (m := m) c₀ name).trans (by simp [hroom]))
          have hm := isMember_leaveCurrent h c c₀ name
          rw [hroom'] at hm ⊢
          simp only [Option.map_some', Option.some.injEq, exists_eq_left', Room.mem_addMember]
            at hm ⊢
          by_cases hc : c = c₀
          · simp [hc]
          · simp [hc, hm, h.member_iff]
        · rename_i hr
          rw [isMember_leaveCurrent h]
          by_cases hc : c = c₀
          · subst hc; simp [Ne.symm hr]
          · simp [hc, h.member_iff]
      · simp only [UnorderedMap.find?_set] at hc
        rw [isSome_modify, isSome_leaveCurrent]
        split at hc
        · cases hc; simp [hroom]
        · exact h.room_exists c r hc

theorem clientRooms_foldl_moveToGeneral (L : List Int) (m : ChatRoomManager) (c : Int) :
    (L.foldl moveToGeneral m).clientRooms.find? c =
      if c ∈ L then some "general" else m.clientRooms.find? c := by
  induction L generalizing m with
  | nil => simp
  | cons a L ih =>
    simp only [List.foldl_cons, ih, moveToGeneral, UnorderedMap.find?_set, List.mem_cons]
    by_cases h1 : c ∈ L <;> by_cases h2 : c = a <;> simp [h1, h2]

/-- The migration loop of `DeleteRoom` adds the moved clients to `general` and leaves the
other rooms untouched. -/
theorem rooms_foldl_moveToGeneral (L : List Int) (m : ChatRoomManager) (g : Room)
    (hg : m.rooms.find? "general" = some g) (r : String) :
    (L.foldl moveToGeneral m).rooms.find? r =
      if r = "general" then some (L.foldl (fun g c => g.addMember c) g) else m.rooms.find? r := by
  induction L generalizing m g with
  | nil => split <;> simp_all
  | cons a L ih =>
    rw [List.foldl_cons, ih _ (g.addMember a) (by simp [moveToGeneral, hg])]
    split <;> simp_all [moveToGeneral]

theorem mem_foldl_addMember (L : List Int) (g : Room) (c : Int) :
    c ∈ (L.foldl (fun g c => g.addMember c) g).members ↔ c ∈ L ∨ c ∈ g.members := by
  induction L generalizing g with
  | nil => simp
  | cons a L ih => simp only [List.foldl_cons, ih, Room.mem_addMember, List.mem_cons]; tauto

theorem Inv.deleteRoom (h : m.Inv) (name : String) (q : Int) :
    (m.deleteRoom name q).2.Inv := by
  unfold ChatRoomManager.deleteRoom
  split
  · exact h
  · rename_i hgen
    split
    · exact h
    · rename_i room hroom
      split
      · exact h
      · obtain ⟨g, hg⟩ := Option.isSome_iff_exists.1 h.general
        -- the moved clients are exactly those recorded in the deleted room
        have hL : ∀ c, c ∈ room.members.elems ↔ m.clientRooms.find? c = some name := fun c => by
          rw [← h.member_iff]; simp [IsMember, hroom, UnorderedSet.mem_def]
        refine ⟨?_, fun c r => ?_, fun c r hc => ?_⟩
        · simp [rooms_foldl_moveToGeneral _ _ g hg, Ne.symm hgen]
        · have hgc := h.member_iff c "general"
          simp only [IsMember, hg, Option.some.injEq, exists_eq_left'] at hgc
          simp only [IsMember, UnorderedMap.find?_erase, rooms_foldl_moveToGeneral _ _ g hg,
            clientRooms_foldl_moveToGeneral, hL]
          by_cases hcn : m.clientRooms.find? c = some name
          · -- `c` was a member of the deleted room: it is now in `general` only
            simp only [hcn, if_true, Option.some.injEq]
            by_cases hr : r = name
            · simp [hr, Ne.symm hgen]
            · by_cases hrg : r = "general"
              · subst hrg; simp [hr, mem_foldl_addMember, hL, hcn]
              · simp only [hr, hrg, if_false, Ne.symm hrg, iff_false, not_exists, not_and]
                intro room' hroom' hmem
                exact hr (Option.some.inj
                  (((h.member_iff c r).1 ⟨room', hroom', hmem⟩).symm.trans hcn))
          · simp only [hcn, if_false]
            by_cases hr : r = name
            · subst hr; simp [hcn]
            · by_cases hrg : r = "general"
              · subst hrg; simp [hr, mem_foldl_addMember, hL, hcn, hgc]
              · simp only [hr, hrg, if_false]; exact h.member_iff c r
        · simp only [clientRooms_foldl_moveToGeneral, hL] at hc
          simp only [UnorderedMap.find?_erase, rooms_foldl_moveToGeneral _ _ g hg]
          split at hc
          · cases hc; simp [Ne.symm hgen]
          · rename_i hcn
            have hrn : r ≠ name := fun e => hcn (e ▸ hc)
            simp only [hrn, if_false]
            split
            · rfl
            · exact h.room_exists c r hc

/-- Every operation keeps the invariant. -/
theorem Inv.apply (h : m.Inv) : ∀ op, (m.apply op).Inv
  | .createRoom name o p pw => h.createRoom name o p pw
  | .deleteRoom name q => h.deleteRoom name q
  | .joinRoom name c pw => h.joinRoom name c pw
  | .leaveRoom c => h.leaveRoom c
  | .setTopic r t q => h.setTopic r t q

theorem Inv.run (h : m.Inv) (ops : List Op) : (m.run ops).Inv := by
  induction ops generalizing m with
  | nil => exact h
  | cons op ops ih => exact ih (h.apply op)

theorem Inv.isMember_unique (h : m.Inv) {c : Int} {r r' : String} (hr : m.IsMember c r)
    (hr' : m.IsMember c r') : r = r' :=
  Option.some.inj (((h.member_iff c r).1 hr).symm.trans ((h.member_iff c r').1 hr'))

theorem Inv.getClientRoom_eq (h : m.Inv) {c : Int} {r : String} (hr : m.IsMember c r) :
    m.getClientRoom c = r := by
  simp [getClientRoom, (h.member_iff c r).1 hr]

/-- **The membership invariant.** After every sequence of operations from the constructor:
`general` exists, `c ∈ rooms[r].members ↔ client_rooms[c] = r`, every recorded room
exists, a client is a member of at most one room, and `GetClientRoom` names it. -/
theorem membership_invariant (ops : List Op) :
    let m := new.run ops
    (m.rooms.find? "general").isSome ∧
      (∀ c r, m.IsMember c r ↔ m.clientRooms.find? c = some r) ∧
      (∀ c r, m.clientRooms.find? c = some r → (m.rooms.find? r).isSome) ∧
      (∀ c r r', m.IsMember c r → m.IsMember c r' → r = r') ∧
      (∀ c r, m.IsMember c r → m.getClientRoom c = r) :=
  have h := inv_new.run ops
  ⟨h.general, h.member_iff, h.room_exists, fun _ _ _ => h.isMember_unique,
    fun _ _ => h.getClientRoom_eq⟩


/-! ## `DeleteRoom`

What the call does, from any state where `general` exists: it refuses exactly when the room is
`general`, missing, or neither owned by the requester nor requested by the administrator, and
then changes nothing; otherwise the room is gone, its members are recorded in `general` and
added to it, and nothing else moves. -/

/-- The migration loop changes the members of `general` only. -/
theorem foldl_addMember_eq (L : List Int) (g : Room) :
    L.foldl (fun g c => g.addMember c) g =
      { g with members := (L.foldl (fun g c => g.addMember c) g).members } := by
  induction L generalizing g with
  | nil => rfl
  | cons a L ih => exact ih (g.addMember a)

/-- A refused `DeleteRoom` changes nothing. -/
theorem deleteRoom_of_false {name : String} {q : Int} (h : (m.deleteRoom name q).1 = false) :
    (m.deleteRoom name q).2 = m := by
  unfold ChatRoomManager.deleteRoom at h ⊢
  split_ifs at h ⊢ <;> (try split at h) <;> (try split_ifs at h) <;> simp_all

theorem deleteRoom_true_iff (name : String) (q : Int) :
    (m.deleteRoom name q).1 = true ↔
      name ≠ "general" ∧ ∃ room, m.rooms.find? name = some room ∧ (q = room.ownerId ∨ q = 0) := by
  unfold ChatRoomManager.deleteRoom
  split
  · simp_all
  · split
    · simp_all
    · rename_i room hroom
      simp only [hroom, Option.some.injEq, exists_eq_left', ne_eq, *, not_false_eq_true,
        true_and]
      split_ifs <;> simp only [eq_comm (a := q)] <;> tauto

/-- An accepted `DeleteRoom` in closed form. -/
theorem deleteRoom_of_find? {name : String} {q : Int} {room : Room} (hgen : name ≠ "general")
    (hroom : m.rooms.find? name = some room) (hq : q = room.ownerId ∨ q = 0) :
    (m.deleteRoom name q).2 =
      let m' := room.members.elems.foldl moveToGeneral m
      { m' with rooms := m'.rooms.erase name } := by
  have : ¬(room.ownerId ≠ q ∧ q ≠ 0) := by tauto
  simp [ChatRoomManager.deleteRoom, hgen, hroom, this]

/-- **`DeleteRoom` on a reachable state.** From the constructor, after any operations,
`DeleteRoom(r, q)` succeeds exactly when `r` is not `general`, exists, and `q` is its owner or
the administrator `0`. On success `r` is gone; each former member is in `general` and recorded
there; `general` keeps its name, topic, owner, privacy and password and gains exactly the former
members; every other room and every other client's entry is unchanged. On refusal nothing
changes. -/
theorem delete_room_spec (ops : List Op) (r : String) (q : Int) :
    let m := new.run ops
    let res := m.deleteRoom r q
    (res.1 = true ↔
      r ≠ "general" ∧ ∃ room, m.rooms.find? r = some room ∧ (q = room.ownerId ∨ q = 0)) ∧
    (res.1 = true → ∀ room, m.rooms.find? r = some room →
      res.2.rooms.find? r = none ∧
      (∀ c ∈ room.members, res.2.IsMember c "general" ∧
        res.2.clientRooms.find? c = some "general") ∧
      (∃ g g', m.rooms.find? "general" = some g ∧ res.2.rooms.find? "general" = some g' ∧
        g' = { g with members := g'.members } ∧
        ∀ c, c ∈ g'.members ↔ c ∈ g.members ∨ c ∈ room.members) ∧
      (∀ r', r' ≠ r → r' ≠ "general" → res.2.rooms.find? r' = m.rooms.find? r') ∧
      (∀ c, c ∉ room.members → res.2.clientRooms.find? c = m.clientRooms.find? c)) ∧
    (res.1 = false → res.2 = m) := by
  intro m res
  obtain ⟨g, hg⟩ := Option.isSome_iff_exists.1 (inv_new.run ops).general
  refine ⟨deleteRoom_true_iff r q, fun htrue room hroom => ?_, deleteRoom_of_false⟩
  obtain ⟨hgen, room', hroom', hq⟩ := (deleteRoom_true_iff r q).1 htrue
  rw [Option.some.inj (hroom'.symm.trans hroom)] at hq
  have hres : res.2 = _ := deleteRoom_of_find? hgen hroom hq
  have hgeneral : res.2.rooms.find? "general" =
      some (room.members.elems.foldl (fun g c => g.addMember c) g) := by
    simp [hres, rooms_foldl_moveToGeneral _ _ g hg, Ne.symm hgen]
  have hmem : ∀ c, c ∈ (room.members.elems.foldl (fun g c => g.addMember c) g).members ↔
      c ∈ g.members ∨ c ∈ room.members := fun c => by
    rw [mem_foldl_addMember, or_comm]; rfl
  refine ⟨by simp [hres], fun c hc => ⟨⟨_, hgeneral, (hmem c).2 (.inr hc)⟩, ?_⟩,
    ⟨g, _, hg, hgeneral, foldl_addMember_eq _ _, hmem⟩, fun r' hr hrg => ?_, fun c hc => ?_⟩
  · simp [hres, clientRooms_foldl_moveToGeneral, show c ∈ room.members.elems from hc]
  · simp [hres, rooms_foldl_moveToGeneral _ _ g hg, hr, hrg]
  · simp [hres, clientRooms_foldl_moveToGeneral, show c ∉ room.members.elems from hc]

end ChatServer.ChatRoomManager
