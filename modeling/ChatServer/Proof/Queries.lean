import ChatServer.Spec.MessageStore

/-!
# The cache of the message store and its queries

`Store` appends to the room's queue and pops from the front while the queue is longer than
`max_messages_per_room`, so a queue is always the last `max_messages_per_room` messages stored
with its room since it was last cleared. The queries read the queues in order: `GetRecent`
takes a suffix of one queue; `GetBySender` and `Search` walk the queues of the rooms in
iteration order, then each queue front to back, and stop at their limit.

* `keepLast n l`: the last `n` elements of `l`.
* `get_recent_last_stored`: `GetRecent(r, n)` is the last `min(n, M, k)` of the `k` messages
  stored with room `r` since it was last cleared.
* `get_by_sender_zero`: `GetBySender(s, 0)` returns a message: the loop checks its limit only
  after it has pushed.
* `getBySender_eq`: `GetBySender(s, n)` is the first `max(n, 1)` messages of the sender.
* `search_first_matches`: `Search` is the first `max_results` matches in its scope.
-/

namespace ChatServer.MessageStore

variable {localTime : Int → Tm}

/-! ## The last elements of a list -/

/-- The last `n` elements of `l`, in order. -/
def keepLast {α : Type} (n : Nat) (l : List α) : List α := l.drop (l.length - n)

@[simp] theorem length_keepLast {α : Type} (n : Nat) (l : List α) :
    (keepLast n l).length = min n l.length := by
  simp only [keepLast, List.length_drop]; omega

theorem keepLast_keepLast {α : Type} (n m : Nat) (l : List α) :
    keepLast n (keepLast m l) = keepLast (min n m) l := by
  simp only [keepLast, List.length_drop, List.drop_drop]
  congr 1; omega

/-- Appending to the last `m` and keeping the last `m` is keeping the last `m` of the whole. -/
theorem keepLast_append_singleton {α : Type} (m : Nat) (l : List α) (x : α) :
    keepLast m (keepLast m l ++ [x]) = keepLast m (l ++ [x]) := by
  simp only [keepLast, List.length_append, List.length_drop, List.length_singleton,
    List.drop_append_eq_append_drop, List.drop_drop]
  congr 2 <;> omega

theorem trimFront_eq (max : Nat) (l : List ChatMessage) : trimFront max l = keepLast max l := by
  induction l with
  | nil => simp [trimFront, keepLast]
  | cons m rest ih =>
    rw [trimFront]
    split
    · rename_i h
      rw [ih, keepLast, keepLast, List.length_cons, show rest.length + 1 - max =
        rest.length - max + 1 by simp at h; omega, List.drop_succ_cons]
    · rename_i h
      simp only [keepLast, show (m :: rest).length - max = 0 by simp at h ⊢; omega,
        List.drop_zero]

/-! ## What the calls do to the cache -/

@[simp] theorem openLogFile_roomMessages (s : MessageStore) (now : Int) :
    (s.openLogFile localTime now).roomMessages = s.roomMessages := by
  dsimp only [openLogFile]; split <;> rfl

@[simp] theorem openLogFile_maxMessagesPerRoom (s : MessageStore) (now : Int) :
    (s.openLogFile localTime now).config.maxMessagesPerRoom = s.config.maxMessagesPerRoom := by
  dsimp only [openLogFile]; split <;> rfl

@[simp] theorem writeToFile_roomMessages (s : MessageStore) (m : ChatMessage) (now : Int) :
    (s.writeToFile localTime m now).roomMessages = s.roomMessages := by
  unfold writeToFile; split
  · rfl
  · dsimp only; split <;> simp [rotateLogFile]

@[simp] theorem writeToFile_maxMessagesPerRoom (s : MessageStore) (m : ChatMessage) (now : Int) :
    (s.writeToFile localTime m now).config.maxMessagesPerRoom = s.config.maxMessagesPerRoom := by
  unfold writeToFile; split
  · rfl
  · dsimp only; split <;> simp [rotateLogFile]

theorem store_roomMessages (s : MessageStore) (m : ChatMessage) (now : Int) :
    (s.store localTime m now).roomMessages = s.roomMessages.alter m.room []
      fun msgs => keepLast s.config.maxMessagesPerRoom (msgs ++ [m]) := by
  simp only [store, trimFront_eq]
  split <;> simp

@[simp] theorem store_maxMessagesPerRoom (s : MessageStore) (m : ChatMessage) (now : Int) :
    (s.store localTime m now).config.maxMessagesPerRoom = s.config.maxMessagesPerRoom := by
  dsimp only [store]; split <;> simp

@[simp] theorem apply_maxMessagesPerRoom (s : MessageStore) (op : Op) :
    (s.apply localTime op).config.maxMessagesPerRoom = s.config.maxMessagesPerRoom := by
  cases op with
  | store m now => exact store_maxMessagesPerRoom s m now
  | clear room => simp only [apply, clear]; split <;> rfl

/-! ## `GetRecent` -/

/-- What a call does to the messages stored with room `r` since it was last cleared. -/
def storedStep (r : String) (acc : List ChatMessage) : Op → List ChatMessage
  | .store m _ => if m.room = r then acc ++ [m] else acc
  | .clear room => if room = "" ∨ room = r then [] else acc

/-- The messages stored with room `r` since the last `Clear(r)` or `Clear()`, in order. -/
def storedSince (r : String) (ops : List Op) : List ChatMessage := ops.foldl (storedStep r) []

/-- The queue of a room after a sequence of calls keeps the last `max_messages_per_room` of the
messages stored with the room since it was last cleared. -/
theorem queue_run (r : String) (ops : List Op) :
    ∀ (s : MessageStore) (acc : List ChatMessage),
      (s.roomMessages.find? r).getD [] = keepLast s.config.maxMessagesPerRoom acc →
      ((s.run localTime ops).roomMessages.find? r).getD [] =
        keepLast s.config.maxMessagesPerRoom (ops.foldl (storedStep r) acc) := by
  induction ops with
  | nil => intro s acc h; exact h
  | cons op ops ih =>
    intro s acc h
    have hM : (s.apply localTime op).config.maxMessagesPerRoom = s.config.maxMessagesPerRoom :=
      apply_maxMessagesPerRoom s op
    refine hM ▸ ih (s.apply localTime op) _ (hM.symm ▸ ?_)
    cases op with
    | store m now =>
      simp only [apply, storedStep, store_roomMessages, UnorderedMap.find?_alter]
      by_cases hr : r = m.room
      · simp only [hr, if_true, Option.getD_some]
        rw [hr] at h
        rw [h, keepLast_append_singleton]
      · simp only [hr, if_false, Ne.symm hr, h]
    | clear room =>
      simp only [apply, storedStep, clear]
      by_cases he : room = ""
      · simp [he, keepLast]
      · by_cases hr : room = r
        · subst hr; simp [he, keepLast]
        · simp [he, hr, Ne.symm hr, h]

/-- `GetRecent(r, n)` keeps the last `n` of the room's queue. -/
theorem getRecent_eq (s : MessageStore) (r : String) (n : Nat) :
    s.getRecent r n = keepLast n ((s.roomMessages.find? r).getD []) := by
  unfold getRecent keepLast
  split <;> simp_all
  congr 1; split <;> omega

/-- **`GetRecent(r, n)` is the last `min(n, M, k)` of the `k` messages stored with room `r`
since the last `Clear(r)` or `Clear()`**, in the order they were stored, from a store built by
the constructor with any configuration; and no queue holds more than `M` messages. -/
theorem get_recent_last_stored (config : MSConfig) (fs : FileSystem) (wall : Int)
    (ops : List Op) (r : String) (n : Nat) :
    let s := (new localTime config fs wall).run localTime ops
    let k := (storedSince r ops).length
    s.getRecent r n = (storedSince r ops).drop
        (k - min n (min config.maxMessagesPerRoom k)) ∧
      ∀ room q, s.roomMessages.find? room = some q → q.length ≤ config.maxMessagesPerRoom := by
  intro s k
  have hnew : ∀ r', ((new localTime config fs wall).roomMessages.find? r').getD [] =
      keepLast (new localTime config fs wall).config.maxMessagesPerRoom [] := fun r' => by
    simp only [new]; split <;> simp [keepLast]
  have hM : (new localTime config fs wall).config.maxMessagesPerRoom =
      config.maxMessagesPerRoom := by
    simp only [new]; split <;> simp
  have hq : ∀ r', (s.roomMessages.find? r').getD [] =
      keepLast config.maxMessagesPerRoom (storedSince r' ops) := fun r' =>
    hM ▸ queue_run r' ops _ [] (hnew r')
  refine ⟨?_, fun room q hfind => ?_⟩
  · rw [getRecent_eq, hq, keepLast_keepLast, keepLast]
    congr 1; omega
  · have := hq room
    rw [hfind, Option.getD_some] at this
    rw [this, length_keepLast]
    exact min_le_left _ _

/-! ## `GetBySender` -/

/-- The inner loop: below its limit, it pushes the sender's messages of the queue and returns
early once the result reaches `max(count, 1)`; the limit is checked only after a push. -/
theorem getBySenderQueue_eq (sender : Int) (count : Nat) (msgs : List ChatMessage) :
    ∀ result : List ChatMessage, result.length < max count 1 →
      getBySenderQueue sender count msgs result =
        let all := result ++ msgs.filter fun m => m.senderId = sender
        if max count 1 ≤ all.length then .inl (all.take (max count 1)) else .inr all := by
  induction msgs with
  | nil => intro result h; simp [getBySenderQueue, h.not_le]
  | cons msg msgs ih =>
    intro result h
    by_cases hs : msg.senderId = sender
    · have hF : result ++ (msg :: msgs).filter (fun m => m.senderId = sender) =
          (result ++ [msg]) ++ msgs.filter (fun m => m.senderId = sender) := by
        simp [hs]
      rw [getBySenderQueue, if_pos hs]
      dsimp only
      rw [hF]
      by_cases hfull : count ≤ (result ++ [msg]).length
      · -- the limit is checked after the push, so the push that reaches `max(count, 1)` returns
        have heq : (result ++ [msg]).length = max count 1 := by simp at hfull ⊢; omega
        rw [if_pos hfull, if_pos (heq.ge.trans (List.prefix_append _ _).length_le),
          List.take_append_of_le_length heq.ge, List.take_of_length_le heq.le]
      · rw [if_neg hfull]
        exact ih _ (by simp at hfull ⊢; omega)
    · have hF : (msg :: msgs).filter (fun m => m.senderId = sender) =
          msgs.filter (fun m => m.senderId = sender) := by
        simp [hs]
      rw [getBySenderQueue, if_neg hs, ih result h, hF]

/-- The outer loop: the first `max(count, 1)` messages of the sender over the remaining rooms. -/
theorem getBySenderRooms_eq (sender : Int) (count : Nat)
    (rooms : List (String × List ChatMessage)) :
    ∀ result : List ChatMessage, result.length < max count 1 →
      getBySenderRooms sender count rooms result =
        (result ++ (rooms.flatMap Prod.snd).filter fun m => m.senderId = sender).take
          (max count 1) := by
  induction rooms with
  | nil => intro result h; simp [getBySenderRooms, List.take_of_length_le h.le]
  | cons room rooms ih =>
    intro result h
    obtain ⟨name, msgs⟩ := room
    rw [getBySenderRooms, getBySenderQueue_eq sender count msgs result h]
    dsimp only
    rw [List.flatMap_cons, List.filter_append, ← List.append_assoc]
    by_cases hfull : max count 1 ≤ (result ++ msgs.filter fun m => m.senderId = sender).length
    · rw [if_pos hfull, List.take_append_of_le_length hfull]
    · rw [if_neg hfull]
      exact ih _ (lt_of_not_le hfull)

/-- **`GetBySender(s, n)` is the first `max(n, 1)` cached messages of sender `s`**, rooms in
iteration order, then queue order. For `n ≥ 1` this is the first `min(n, k)`; for `n = 0` it is
the first message of the sender, when there is one. -/
theorem getBySender_eq (s : MessageStore) (sender : Int) (count : Nat) :
    s.getBySender sender count =
      ((s.roomMessages.entries.flatMap Prod.snd).filter fun m => m.senderId = sender).take
        (max count 1) := by
  simpa using getBySenderRooms_eq sender count s.roomMessages.entries [] (by simp)

/-- A store holding one message of client `1`. -/
def oneMessage : MessageStore :=
  { config := { enablePersistence := false }
    roomMessages := UnorderedMap.empty.set "general" [⟨1, "alice", "general", "hi", 0⟩]
    logFile := none, currentFileSize := 0, fs := ⟨fun _ => 0, [], fun _ => true, fun _ => true⟩ }

theorem get_by_sender_zero : oneMessage.getBySender 1 0 = [⟨1, "alice", "general", "hi", 0⟩] := by
  decide

/-! ## `Search` -/

/-- The lambda `search_in_room`: below the limit, the result grows by the matches in queue
order until it holds `max_results`. -/
theorem searchInRoom_eq (q : String) (maxResults : Nat) (msgs : List ChatMessage) :
    ∀ result : List ChatMessage, result.length ≤ maxResults →
      searchInRoom q maxResults msgs result =
        (result ++ msgs.filter (matchesQuery q)).take maxResults := by
  induction msgs with
  | nil => intro result h; simp [searchInRoom, List.take_of_length_le h]
  | cons msg msgs ih =>
    intro result h
    rw [searchInRoom]
    split
    · rename_i hfull
      rw [List.take_append_of_le_length hfull, List.take_of_length_le h]
    · rename_i hshort
      by_cases hm : matchesQuery q msg = true
      · rw [if_pos hm, ih _ (by simp; omega)]
        simp [hm]
      · rw [if_neg hm, ih _ h]
        simp [hm]

/-- The loop over all rooms, with its check after each room. -/
theorem searchRooms_eq (q : String) (maxResults : Nat) (rooms : List (String × List ChatMessage)) :
    ∀ result : List ChatMessage, result.length ≤ maxResults →
      searchRooms q maxResults rooms result =
        (result ++ (rooms.flatMap Prod.snd).filter (matchesQuery q)).take maxResults := by
  induction rooms with
  | nil => intro result h; simp [searchRooms, List.take_of_length_le h]
  | cons room rooms ih =>
    intro result h
    obtain ⟨name, msgs⟩ := room
    simp only [searchRooms, searchInRoom_eq q maxResults msgs result h, List.flatMap_cons,
      List.filter_append, ← List.append_assoc]
    by_cases hfull : maxResults ≤ (result ++ msgs.filter (matchesQuery q)).length
    · rw [if_pos (by simpa using hfull), List.take_append_of_le_length hfull]
    · have hlen : (result ++ msgs.filter (matchesQuery q)).length ≤ maxResults := by omega
      rw [List.take_of_length_le hlen, if_neg (by simpa [List.length_take] using hfull)]
      exact ih _ hlen

/-- **`Search(q, room, max_results)` is the first `max_results` messages of its scope whose
content, lowered by ASCII rules (`Char.toLower` lowers `A`–`Z` only, as `::tolower` does in the
C locale), contains the lowered query as a contiguous substring**: the queue of `room` when it
is not empty, and otherwise the queues of all rooms in iteration order. -/
theorem search_first_matches (s : MessageStore) (q room : String) (maxResults : Nat) :
    s.search q room maxResults =
      ((if room = "" then s.roomMessages.entries.flatMap Prod.snd
        else (s.roomMessages.find? room).getD []).filter
          fun msg => decide (q.toLower.toList <:+: msg.content.toLower.toList)).take maxResults := by
  have hm : (fun msg => decide (q.toLower.toList <:+: msg.content.toLower.toList)) =
      matchesQuery q.toLower := rfl
  rw [hm]
  unfold search
  by_cases hr : room = ""
  · simp only [hr, ne_eq, not_true_eq_false, if_false, if_true]
    simpa using searchRooms_eq q.toLower maxResults s.roomMessages.entries [] (by simp)
  · simp only [hr, ne_eq, not_false_eq_true, if_true, if_false]
    split
    · rename_i msgs hfind
      simpa [hfind] using searchInRoom_eq q.toLower maxResults msgs [] (by simp)
    · rename_i hfind
      simp [hfind]

end ChatServer.MessageStore
