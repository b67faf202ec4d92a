import ChatServer.Proof.Window
import Mathlib.Data.List.Sort
import Mathlib.Data.List.Chain

/-!
# The two sliding-window limiters

* `connection_rate_window`: along every sequence of calls whose `AllowConnection` clock
  readings are nondecreasing, **at most `max_connections_per_second` calls that return true
  have their readings in any closed one-second interval**.
* `message_rate_window`: along every sequence of calls at nondecreasing readings that follows
  the discipline of `HandleMessage` for client `c` (`disciplined`), **at most
  `max_messages_per_minute` calls `RecordMessage(c)` have their readings in any closed
  one-minute interval**.

Both are run lemmas over `Window.Inv`; the only facts used about the other calls are that they
leave the deque of the limiter and the configuration alone.

Both limits are `int`s that the limiters compare through `(size_t)`, so the bounds are stated
for a limit of at least `0`. A negative limit wraps to at least `2^63` (`sizeT_of_neg`): the
limiter then refuses only a window that already holds that many readings, that is never.
-/

namespace ChatServer.ConnectionManager

open Window

variable {cm : ConnectionManager}

/-! ## What the calls change -/

/-- `IsMuted` changes the mute map only. -/
theorem isMuted_snd (cm : ConnectionManager) (c : Int) (now : Int) :
    ∃ mc, (cm.isMuted c now).2 = { cm with mutedClients := mc } := by
  unfold isMuted
  split
  · exact ⟨cm.mutedClients, rfl⟩
  · split
    · exact ⟨_, rfl⟩
    · exact ⟨cm.mutedClients, rfl⟩

theorem allowMessage_snd (cm : ConnectionManager) (c : Int) (now : Int) :
    ∃ mc msgs, (cm.allowMessage c now).2 = { cm with mutedClients := mc, clientMessages := msgs } ∧
      ∀ c', c' ≠ c → msgs.find? c' = cm.clientMessages.find? c' := by
  obtain ⟨mc, hmc⟩ := isMuted_snd cm c now
  unfold allowMessage
  simp only [hmc]
  split
  · exact ⟨mc, cm.clientMessages, rfl, fun _ _ => rfl⟩
  · exact ⟨mc, _, rfl, fun c' hc' => by simp [hc']⟩

theorem onDisconnect_eq (cm : ConnectionManager) :
    ∃ n, cm.onDisconnect = { cm with currentConnections := n } := by
  unfold onDisconnect
  split
  · exact ⟨_, rfl⟩
  · exact ⟨cm.currentConnections, rfl⟩

/-- `AllowConnection` in closed form. -/
theorem allowConnection_eq (cm : ConnectionManager) (ip : String) (now : Int) :
    cm.allowConnection ip now =
      if cm.isBanned ip = false ∧ cm.currentConnections < cm.config.maxTotalConnections then
        if (pruneOlder cm.connectionTimestamps (now - seconds 1)).length <
            sizeT cm.config.maxConnectionsPerSecond then
          (true, { cm with
            connectionTimestamps := pruneOlder cm.connectionTimestamps (now - seconds 1) ++ [now] })
        else (false, { cm with
            connectionTimestamps := pruneOlder cm.connectionTimestamps (now - seconds 1) })
      else (false, cm) := by
  unfold allowConnection
  by_cases hb : cm.isBanned ip = true
  · simp [hb]
  · by_cases hc : cm.currentConnections ≥ cm.config.maxTotalConnections
    · simp [hb, hc, not_lt.2 hc]
    · simp only [hb, hc, if_false, Bool.false_eq_true, not_le.1 hc, and_true, if_true]
      by_cases hl : (pruneOlder cm.connectionTimestamps (now - seconds 1)).length <
          sizeT cm.config.maxConnectionsPerSecond
      · simp [hl, not_le.2 hl]
      · simp [hl, not_lt.1 hl]

theorem exec_config (cm : ConnectionManager) (call : Call) :
    (cm.exec call).2.config = cm.config := by
  cases call with
  | allowConnection ip now => rw [exec, allowConnection_eq]; split <;> (try split) <;> rfl
  | allowMessage c now => obtain ⟨_, _, h, -⟩ := allowMessage_snd cm c now; simp [exec, h]
  | isMuted c now => obtain ⟨_, h⟩ := isMuted_snd cm c now; simp [exec, h]
  | onDisconnect => obtain ⟨_, h⟩ := onDisconnect_eq cm; simp [exec, h]
  | _ => rfl

/-- Only `AllowConnection` changes the connection deque. -/
theorem exec_connectionTimestamps (cm : ConnectionManager) (call : Call)
    (h : ∀ ip now, call ≠ .allowConnection ip now) :
    (cm.exec call).2.connectionTimestamps = cm.connectionTimestamps := by
  cases call with
  | allowConnection ip now => exact absurd rfl (h ip now)
  | allowMessage c now => obtain ⟨_, _, h, -⟩ := allowMessage_snd cm c now; simp [exec, h]
  | isMuted c now => obtain ⟨_, h⟩ := isMuted_snd cm c now; simp [exec, h]
  | onDisconnect => obtain ⟨_, h⟩ := onDisconnect_eq cm; simp [exec, h]
  | _ => rfl

/-- Only `AllowMessage(c)` and `RecordMessage(c)` change the window of client `c`. -/
theorem exec_clientMessages (cm : ConnectionManager) (call : Call) (c : Int)
    (h1 : ∀ now, call ≠ .allowMessage c now) (h2 : ∀ now, call ≠ .recordMessage c now) :
    (cm.exec call).2.clientMessages.find? c = cm.clientMessages.find? c := by
  cases call with
  | allowMessage c' now =>
    obtain ⟨_, _, h, hc⟩ := allowMessage_snd cm c' now
    simp only [exec, Prod.map_snd, id, h]
    exact hc c fun e => h1 now (e ▸ rfl)
  | recordMessage c' now =>
    have : c ≠ c' := fun e => h2 now (e ▸ rfl)
    simp [exec, recordMessage, updateActivity, this]
  | isMuted c now => obtain ⟨_, h⟩ := isMuted_snd cm c now; simp [exec, h]
  | allowConnection ip now => rw [exec, allowConnection_eq]; split <;> (try split) <;> rfl
  | onDisconnect => obtain ⟨_, h⟩ := onDisconnect_eq cm; simp [exec, h]
  | _ => rfl

/-! ## Connections per second -/

/-- Along a run, the clock reading of every `AllowConnection` call that reads the clock (the
address is not banned and the server is not full), with the call's answer. -/
def connectionReadings : ConnectionManager → List Call → List (Int × Bool)
  | _, [] => []
  | cm, call :: calls =>
    let rest := connectionReadings (cm.exec call).2 calls
    match call with
    | .allowConnection ip now =>
      if cm.isBanned ip = false ∧ cm.currentConnections < cm.config.maxTotalConnections then
        (now, (cm.allowConnection ip now).1) :: rest
      else rest
    | _ => rest

/-- The readings of the calls that returned true. -/
def acceptedReadings (rs : List (Int × Bool)) : List Int := (rs.filter (·.2)).map (·.1)

theorem connection_run (calls : List Call) :
    ∀ (cm : ConnectionManager) (H : List Int) (cut : Int),
      Inv (seconds 1) (sizeT cm.config.maxConnectionsPerSecond) cut cm.connectionTimestamps H →
      List.Chain (· ≤ ·) (cut + seconds 1) ((connectionReadings cm calls).map (·.1)) →
      ∀ x, countIn (seconds 1) x (H ++ acceptedReadings (connectionReadings cm calls)) ≤
        sizeT cm.config.maxConnectionsPerSecond := by
  induction calls with
  | nil => intro cm H cut h _ x; simpa [connectionReadings, acceptedReadings] using h.bound x
  | cons call calls ih =>
    intro cm H cut h hch x
    have hcfg := exec_config cm call
    by_cases hc : ∃ ip now, call = .allowConnection ip now
    · obtain ⟨ip, now, rfl⟩ := hc
      simp only [connectionReadings, exec, Prod.map_snd, id] at hch ih ⊢
      rw [allowConnection_eq] at hch ⊢
      set ts := pruneOlder cm.connectionTimestamps (now - seconds 1)
      by_cases hpass : cm.isBanned ip = false ∧
          cm.currentConnections < cm.config.maxTotalConnections
      · simp only [hpass, and_self, if_true, List.map_cons, List.chain_cons] at hch ⊢
        have hpr : Inv (seconds 1) _ (now - seconds 1) ts H := h.prune (by omega)
        by_cases hlen : ts.length < sizeT cm.config.maxConnectionsPerSecond
        · simp only [hlen, if_true] at hch ⊢
          have hpush := hpr.push hlen (r := now) (by omega)
          simpa [acceptedReadings] using
            ih _ (H ++ [now]) _ hpush (by rw [Int.sub_add_cancel]; exact hch.2) x
        · simp only [hlen, if_false] at hch ⊢
          simpa [acceptedReadings] using ih _ H _ hpr (by rw [Int.sub_add_cancel]; exact hch.2) x
      · simp only [hpass, if_false] at hch ⊢
        exact ih cm H cut h hch x
    · push_neg at hc
      have hrest : connectionReadings cm (call :: calls) =
          connectionReadings (cm.exec call).2 calls := by
        cases call <;> first | rfl | exact absurd rfl (hc _ _)
      rw [hrest] at hch ⊢
      have := ih (cm.exec call).2 H cut
        (by rw [hcfg, exec_connectionTimestamps cm call hc]; exact h) hch x
      rwa [hcfg] at this

/-- **Connections per second.** From the constructor, along every sequence of calls (any
addresses, interleaved with any other calls) whose `AllowConnection` clock readings are
nondecreasing, no closed interval of one second holds the readings of more than
`max_connections_per_second` calls that returned true. -/
theorem connection_rate_window (cfg : CMConfig) (hcap : 0 ≤ cfg.maxConnectionsPerSecond)
    (calls : List Call)
    (hmono : ((connectionReadings (new cfg) calls).map (·.1)).Sorted (· ≤ ·)) (x : Int) :
    (countIn (seconds 1) x (acceptedReadings (connectionReadings (new cfg) calls)) : Int) ≤
      cfg.maxConnectionsPerSecond := by
  set rs := (connectionReadings (new cfg) calls).map (·.1) with hrs
  have hch : List.Chain (· ≤ ·) (rs.headD 0) rs := by
    cases hr : rs with
    | nil => exact List.Chain.nil
    | cons t rest =>
      rw [hr] at hmono
      exact List.Chain.cons le_rfl (List.chain_iff_pairwise.2 hmono)
  have := connection_run calls (new cfg) [] (rs.headD 0 - seconds 1) (inv_nil _ _ _)
    (by simpa [rs] using hch) x
  rw [show (new cfg).config = cfg from rfl, sizeT_of_nonneg hcap, List.nil_append] at this
  omega

theorem connection_rate_window_two_calls :
    (countIn (seconds 1) 0 (acceptedReadings (connectionReadings (new {})
      [.allowConnection "10.0.0.1:5000" 0, .allowConnection "10.0.0.2:5000" 1]))) ≤
      ({} : CMConfig).maxConnectionsPerSecond :=
  connection_rate_window {} (by decide) _ (by decide) 0

/-! ## Messages per minute -/

/-- The readings of the `RecordMessage(c)` calls of a sequence. -/
def recordReadings (c : Int) : List Call → List Int
  | [] => []
  | .recordMessage c' now :: calls =>
    if c' = c then now :: recordReadings c calls else recordReadings c calls
  | _ :: calls => recordReadings c calls

/-- The answer `true`. -/
def Answer.isTrue : Answer → Bool
  | .bool true => true
  | _ => false

/-- The discipline of `HandleMessage` for client `c`, read along the calls and their answers:
an `AllowMessage(c)` that returns true is followed by `RecordMessage(c)` before the next
`AllowMessage(c)`, and `RecordMessage(c)` is called only there. `pending` holds between such
an `AllowMessage(c)` and its `RecordMessage(c)`. -/
def disciplined (c : Int) : Bool → List (Call × Answer) → Bool
  | _, [] => true
  | pending, (.allowMessage c' _, a) :: rest =>
    if c' = c then !pending && disciplined c a.isTrue rest else disciplined c pending rest
  | pending, (.recordMessage c' _, _) :: rest =>
    if c' = c then pending && disciplined c false rest else disciplined c pending rest
  | pending, _ :: rest => disciplined c pending rest

theorem disciplined_cons_other {c : Int} {call : Call} (h1 : ∀ now, call ≠ .allowMessage c now)
    (h2 : ∀ now, call ≠ .recordMessage c now) (p : Bool) (a : Answer) (rest : List (Call × Answer)) :
    disciplined c p ((call, a) :: rest) = disciplined c p rest := by
  cases call with
  | allowMessage c' now =>
    have : c' ≠ c := by rintro rfl; exact h1 now rfl
    simp [disciplined, this]
  | recordMessage c' now =>
    have : c' ≠ c := by rintro rfl; exact h2 now rfl
    simp [disciplined, this]
  | _ => rfl

theorem recordReadings_cons_other {c : Int} {call : Call}
    (h2 : ∀ now, call ≠ .recordMessage c now) (calls : List Call) :
    recordReadings c (call :: calls) = recordReadings c calls := by
  cases call with
  | recordMessage c' now =>
    have : c' ≠ c := by rintro rfl; exact h2 now rfl
    simp [recordReadings, this]
  | _ => rfl

@[simp] theorem Answer.isTrue_bool (b : Bool) : (Answer.bool b).isTrue = b := by cases b <;> rfl

/-- The window of client `c`. -/
def window (cm : ConnectionManager) (c : Int) : List Int := (cm.clientMessages.find? c).getD []

/-- `AllowMessage(c)` either answers false on a mute and leaves the window alone, or prunes
the window and answers whether it is below the cap. -/
theorem allowMessage_window (cm : ConnectionManager) (c : Int) (now : Int) :
    ((cm.allowMessage c now).1 = false ∧ (cm.allowMessage c now).2.window c = cm.window c) ∨
      ((cm.allowMessage c now).2.window c = pruneOlder (cm.window c) (now - minutes 1) ∧
        ((cm.allowMessage c now).1 = true →
          ((cm.allowMessage c now).2.window c).length < sizeT cm.config.maxMessagesPerMinute)) := by
  obtain ⟨mc, hmc⟩ := isMuted_snd cm c now
  unfold allowMessage
  simp only [hmc]
  split
  · exact Or.inl ⟨rfl, rfl⟩
  · exact Or.inr ⟨by simp [window], fun h => by simpa [window] using h⟩

theorem message_run (c : Int) (calls : List Call) :
    ∀ (cm : ConnectionManager) (H : List Int) (cut t₀ : Int) (pending : Bool),
      Inv (minutes 1) (sizeT cm.config.maxMessagesPerMinute) cut (cm.window c) H →
      (pending = true → (cm.window c).length < sizeT cm.config.maxMessagesPerMinute) →
      cut + minutes 1 ≤ t₀ →
      List.Chain (· ≤ ·) t₀ (calls.filterMap Call.reading?) →
      disciplined c pending (calls.zip (runCalls cm calls).1) = true →
      ∀ x, countIn (minutes 1) x (H ++ recordReadings c calls) ≤
        sizeT cm.config.maxMessagesPerMinute := by
  induction calls with
  | nil => intro cm H cut t₀ p h _ _ _ _ x; simpa [recordReadings] using h.bound x
  | cons call calls ih =>
    intro cm H cut t₀ p h hp ht hch hd x
    have hcfg := exec_config cm call
    simp only [runCalls, List.zip_cons_cons] at hd
    by_cases hA : ∃ now, call = .allowMessage c now
    · obtain ⟨now, rfl⟩ := hA
      simp only [List.filterMap_cons, Call.reading?, List.chain_cons] at hch
      simp only [disciplined, if_true, Bool.and_eq_true, Bool.not_eq_true'] at hd
      simp only [recordReadings]
      rw [← hcfg]
      have hst : (cm.exec (.allowMessage c now)).2 = (cm.allowMessage c now).2 := rfl
      have han : ((cm.exec (.allowMessage c now)).1).isTrue = (cm.allowMessage c now).1 := by
        simp [exec]
      rw [han] at hd
      rw [hst] at hcfg hd ⊢
      rcases allowMessage_window cm c now with ⟨hf, hw⟩ | ⟨hw, hlt⟩
      · rw [hf] at hd
        exact ih _ H cut now false (by rw [hcfg, hw]; exact h) (by simp) (by omega) hch.2 hd.2 x
      · exact ih _ H _ now _ (by rw [hcfg, hw]; exact h.prune (by omega))
          (fun hq => by rw [hcfg]; exact hlt hq) (by omega) hch.2 hd.2 x
    · by_cases hB : ∃ now, call = .recordMessage c now
      · obtain ⟨now, rfl⟩ := hB
        simp only [List.filterMap_cons, Call.reading?, List.chain_cons] at hch
        simp only [disciplined, if_true, Bool.and_eq_true] at hd
        simp only [recordReadings, if_true]
        have hpush := h.push (hp hd.1) (r := now) (by omega)
        have := ih (cm.exec (.recordMessage c now)).2 (H ++ [now]) cut now false
          (by simpa [exec, recordMessage, updateActivity, window] using hpush) (by simp)
          (by omega) hch.2 hd.2 x
        rwa [hcfg, List.append_assoc, List.singleton_append] at this
      · push_neg at hA hB
        rw [disciplined_cons_other hA hB] at hd
        rw [recordReadings_cons_other hB, ← hcfg]
        have hw : (cm.exec call).2.window c = cm.window c := by
          simp only [window, exec_clientMessages cm call c hA hB]
        rw [← hcfg] at h hp
        rw [← hw] at h hp
        rw [List.filterMap_cons] at hch
        cases hr : call.reading? with
        | none => rw [hr] at hch; exact ih _ H cut t₀ p h hp ht hch hd x
        | some now =>
          rw [hr, List.chain_cons] at hch
          exact ih _ H cut now p h hp (by omega) hch.2 hd x

/-- **Messages per minute.** From the constructor, along every sequence of calls at
nondecreasing clock readings that follows the discipline of `HandleMessage` for client `c`,
no closed interval of one minute holds the readings of more than `max_messages_per_minute`
calls `RecordMessage(c)`, whatever calls for other clients, mutes and unmutes are
interleaved. -/
theorem message_rate_window (cfg : CMConfig) (hcap : 0 ≤ cfg.maxMessagesPerMinute)
    (c : Int) (calls : List Call) (hmono : (calls.filterMap Call.reading?).Sorted (· ≤ ·))
    (hdisc : disciplined c false (calls.zip (runCalls (new cfg) calls).1) = true) (x : Int) :
    (countIn (minutes 1) x (recordReadings c calls) : Int) ≤ cfg.maxMessagesPerMinute := by
  set rs := calls.filterMap Call.reading?
  have hch : List.Chain (· ≤ ·) (rs.headD 0) rs := by
    cases hr : rs with
    | nil => exact List.Chain.nil
    | cons t rest =>
      rw [hr] at hmono
      exact List.Chain.cons le_rfl (List.chain_iff_pairwise.2 hmono)
  have := message_run c calls (new cfg) [] (rs.headD 0 - minutes 1) (rs.headD 0) false
    (by simpa [window, new] using inv_nil (minutes 1) (sizeT cfg.maxMessagesPerMinute) _)
    (by simp) (by omega) hch hdisc x
  rw [show (new cfg).config = cfg from rfl, sizeT_of_nonneg hcap, List.nil_append] at this
  omega

theorem message_rate_window_two_messages :
    (countIn (minutes 1) 0 (recordReadings 1
      [.allowMessage 1 0, .recordMessage 1 0, .allowMessage 1 5, .recordMessage 1 5]) : Int) ≤
      ({} : CMConfig).maxMessagesPerMinute :=
  message_rate_window {} (by decide) 1 _ (by decide) (by decide) 0

end ChatServer.ConnectionManager
