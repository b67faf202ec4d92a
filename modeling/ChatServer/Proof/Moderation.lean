import ChatServer.Proof.Kick

/-!
# What moderation can reach

`#kick`, `#ban` and `#mute` read their target with `iss >> target_name`, which stops at the
first blank, and look it up with `FindClient`, which compares whole names. Registration takes
the whole trimmed chunk as the name, blanks included. So no command can name a client that
registered a name with a blank, such as `bob smith`: `#kick bob smith` looks for `bob`.

`HandleMessage` checks the mute twice. `AllowMessage` refuses a muted client before it looks
at the rate, and `IsMuted` is asked again after `RecordMessage`. A client that passed the first
check has no mute entry left, so the second check never refuses: a muted client is told that it
sends too many messages, and only a `Mute` by another worker between the two calls could lead
to the reply `You are muted.`.

* `Istream.readWord_blank_free`: the word `iss >> s` reads has no blank.
* `App.SpacedName.findClient_ne`: `FindClient` of such a word never finds a client whose name
  has a blank.
* `OutOfReach a t`: a handler's result neither disconnects `t` nor touches its mute entry;
  `handleMessage_outOfReach` proves it for every chunk of every other client.
* `spaced_name_beyond_moderation`: **a client whose name has a blank stays in the table, with
  its mute entry, whatever chunk of another client a worker finishes.**
* `muted_told_too_many`: **a muted client's chunk is answered `You are sending too many
  messages`, and the second mute check answers `false` whenever it is reached.**
-/

namespace ChatServer

/-- What `iss >> s` stores has no blank: the word read, or `""` when the extraction fails. -/
theorem Istream.readWord_blank_free (st : Istream) :
    ∀ ch ∈ ((st.readWord.1).getD "").toList, isSpace ch = false := by
  unfold Istream.readWord
  split
  · simp
  · split
    · simp
    · intro ch h
      simpa using List.mem_takeWhile_imp h

/-- Client `t` goes by a registered name with a blank in it. -/
def App.SpacedName (a : App) (t : Int) : Prop :=
  ∃ n, a.clientNames.find? t = some n ∧ ∃ ch ∈ n.toList, isSpace ch = true

/-- `FindClient` of a word without blanks never finds a client whose name has one. -/
theorem App.SpacedName.findClient_ne {a : App} {t : Int} (ht : a.SpacedName t) {w : String}
    (hw : ∀ ch ∈ w.toList, isSpace ch = false) (hf : a.findClient w ≠ -1) :
    a.findClient w ≠ t := by
  obtain ⟨n, hn, ch, hch, hsp⟩ := ht
  rintro rfl
  obtain rfl : w = n := Option.some.inj ((App.find?_findClient hf).symm.trans hn)
  rw [hw ch hch] at hsp
  cases hsp

@[simp] theorem ConnectionManager.recordMessage_mutedClients (cm : ConnectionManager)
    (c now : Int) : (cm.recordMessage c now).mutedClients = cm.mutedClients := rfl

/-- A handler's result leaves client `t` alone: it does not disconnect `t`, and `t`'s mute
entry is the one `a` has. -/
def OutOfReach (a : App) (t : Int) (r : App × List Effect) : Prop :=
  Effect.disconnect t ∉ r.2 ∧
    r.1.connectionManager.mutedClients.find? t = a.connectionManager.mutedClients.find? t

namespace OutOfReach

variable {a : App} {t : Int}

theorem ite {p : Prop} [Decidable p] {x y : App × List Effect} (hx : OutOfReach a t x)
    (hy : OutOfReach a t y) : OutOfReach a t (if p then x else y) := by
  split <;> assumption

/-- Messages only, from a state with the mutes of `a`. -/
theorem sends {a' : App}
    (hm : a'.connectionManager.mutedClients = a.connectionManager.mutedClients)
    {effs : List Effect} (h : ∀ d, Effect.disconnect d ∉ effs) : OutOfReach a t (a', effs) :=
  ⟨h t, by rw [hm]⟩

/-- A change of the controller that keeps `t`'s mute entry. -/
theorem controller {cm : ConnectionManager}
    (hcm : cm.mutedClients.find? t = a.connectionManager.mutedClients.find? t)
    {r : App × List Effect} (h : OutOfReach { a with connectionManager := cm } t r) :
    OutOfReach a t r :=
  ⟨h.1, h.2.trans hcm⟩

end OutOfReach

/-- The effects of `#kick` and `#ban` disconnect their target and nobody else. -/
theorem disconnect_not_mem_target {t d c : Int} (hd : d ≠ t) (m₁ m₂ : String) :
    Effect.disconnect t ∉ sendToClient d m₁ ++ [.disconnect d] ++ sendToClient c m₂ := by
  simp [Ne.symm hd]

section Commands

variable (localTime : Int → Tm) {a : App} {t : Int} (c : Int) (name : String) (iss : Istream)

theorem joinCommand_outOfReach : OutOfReach a t (joinCommand a c name iss) := by
  unfold joinCommand
  dsimp only
  split_ifs <;> exact .sends rfl (by simp)

theorem createCommand_outOfReach : OutOfReach a t (createCommand a c name iss) := by
  unfold createCommand
  dsimp only
  split_ifs <;> exact .sends rfl (by simp)

theorem leaveCommand_outOfReach : OutOfReach a t (leaveCommand a c) :=
  .ite (.sends rfl (by simp)) (.sends rfl (by simp))

theorem whisperCommand_outOfReach : OutOfReach a t (whisperCommand a c name iss) := by
  unfold whisperCommand
  dsimp only
  split_ifs <;> exact .sends rfl (by simp)

theorem kickCommand_outOfReach (ht : a.SpacedName t) :
    OutOfReach a t (kickCommand a c name iss) := by
  unfold kickCommand
  dsimp only
  split
  · next hf =>
    exact ⟨disconnect_not_mem_target (ht.findClient_ne (iss.readWord_blank_free) hf) _ _, rfl⟩
  · exact .sends rfl (by simp)

theorem banCommand_outOfReach (ht : a.SpacedName t) (srv : IOCPServer) :
    OutOfReach a t (banCommand a srv c name iss) := by
  unfold banCommand
  dsimp only
  split
  · next hf =>
    split
    · exact ⟨disconnect_not_mem_target (ht.findClient_ne (iss.readWord_blank_free) hf) _ _, rfl⟩
    · exact .sends rfl (by simp)
  · exact .sends rfl (by simp)

theorem muteCommand_outOfReach (ht : a.SpacedName t) (now : Int) :
    OutOfReach a t (muteCommand a c name iss now) := by
  unfold muteCommand
  dsimp only
  split
  · next hf =>
    refine ⟨by simp, ?_⟩
    simp [App.print, ConnectionManager.mute,
      (ht.findClient_ne (iss.readWord_blank_free) hf).symm]
  · exact .sends rfl (by simp)

/-- **No command of `c` reaches a client `t ≠ c` whose name has a blank.** -/
theorem processCommand_outOfReach (ht : a.SpacedName t) (htc : t ≠ c) (srv : IOCPServer)
    (cmd : String) (clk : Clock) : OutOfReach a t (processCommand localTime a srv c cmd clk) := by
  unfold processCommand
  dsimp only
  refine .ite ?exit (.ite ?help (.ite ?rooms (.ite ?join (.ite ?create (.ite ?leave (.ite ?online
    (.ite ?whisper (.ite ?history (.ite ?kick (.ite ?ban (.ite ?mute ?unknown)))))))))))
  case exit => exact ⟨by simp [htc], rfl⟩
  case join => exact joinCommand_outOfReach _ _ _
  case create => exact createCommand_outOfReach _ _ _
  case leave => exact leaveCommand_outOfReach _
  case whisper => exact whisperCommand_outOfReach _ _ _
  case kick => exact kickCommand_outOfReach _ _ _ ht
  case ban => exact banCommand_outOfReach _ _ _ ht srv
  case mute => exact muteCommand_outOfReach _ _ _ ht _
  all_goals exact .sends rfl (by simp)

/-- **No chunk of `c` reaches a client `t ≠ c` whose name has a blank**: the checks touch
only `c`'s own entries, and neither a registration, a command nor a chat line disconnects
`t` or changes its mute. -/
theorem handleMessage_outOfReach (ht : a.SpacedName t) (htc : t ≠ c) (srv : IOCPServer)
    (m : String) (clk : Clock) : OutOfReach a t (handleMessage localTime a srv c m clk) := by
  have hmuted : ∀ cm : ConnectionManager,
      (cm.isMuted c clk.steady).2.mutedClients.find? t = cm.mutedClients.find? t :=
    fun cm => ConnectionManager.isMuted_find?_of_ne cm _ htc
  have hallow : ((a.connectionManager.allowMessage c clk.steady).2).mutedClients.find? t =
      a.connectionManager.mutedClients.find? t := by
    rw [ConnectionManager.allowMessage_mutedClients, hmuted]
  have hchecks : (((a.connectionManager.allowMessage c clk.steady).2.recordMessage c
      clk.steady).isMuted c clk.steady).2.mutedClients.find? t =
        a.connectionManager.mutedClients.find? t := by
    rw [hmuted, ConnectionManager.recordMessage_mutedClients, hallow]
  rw [handleMessage_eq]
  dsimp only
  refine .ite (.sends rfl (by simp))
    (.ite (.controller hallow (.sends rfl (by simp))) (.ite ?muted (.ite ?register (.ite ?command ?chat))))
  case muted => exact .controller hchecks (.sends rfl (by simp))
  case register => exact .controller hchecks (.sends rfl (by simp))
  case command =>
    refine .controller hchecks (processCommand_outOfReach _ _ ?_ htc _ _ _)
    exact ht
  case chat => exact .controller hchecks (.sends rfl (by simp [broadcastToRoom]))

end Commands

/-- The rest of a stopped handler sends messages only and keeps every mute entry. -/
theorem Resume.run_outOfReach (k : Resume) (a : App) (c t : Int) : OutOfReach a t (k.run a c) := by
  cases k <;> exact .sends rfl (by simp [Resume.run, connectAdmitted, registerName, broadcastSend])

namespace System

/-- **A client whose name has a blank is beyond the moderation commands.** From any state,
when a worker finishes a chunk of a client `c` (`#kick`, `#ban`, `#mute` or anything else),
whatever the outcomes `sent` of its `WSASend`s, every other client `t` whose registered name has
a blank keeps its entry of the table and its mute entry. -/
theorem spaced_name_beyond_moderation {lt : Int → Tm} {s s' : System} {w : Nat} {c t : Int}
    {m : String} {p : ThreadPool Task}
    (hp : s.server.threadPool.finish w = some (.onMessage c m, p)) {clk : Clock} {sent : List Bool}
    (hs : s.step lt (.finish w clk sent) = some s') (ht : s.app.SpacedName t) (htc : t ≠ c) :
    s'.server.clients.find? t = s.server.clients.find? t ∧
      s'.app.connectionManager.mutedClients.find? t =
        s.app.connectionManager.mutedClients.find? t := by
  obtain ⟨t', p', hp', hcase⟩ := step_finish_eq hs
  rw [hp] at hp'
  cases hp'
  rcases hcase with ⟨-, rfl⟩ | ⟨-, rfl⟩
  · exact ⟨rfl, rfl⟩
  · have h : OutOfReach s.app t (s.finishTask lt w clk (.onMessage c m)) := by
      unfold finishTask
      split
      · exact Resume.run_outOfReach _ _ _ _
      · exact handleMessage_outOfReach lt c ht htc s.server m clk
    exact ⟨(IOCPServer.applyAll_find? _ _ _ _).trans (if_neg h.1), h.2⟩

/-- Client 1 registers as `bob smith`; client 2 connects and sends `#kick bob smith`, and a
worker takes the chunk. -/
def spacedThenKick : List Action :=
  [.accept 1 ⟨"10.0.0.1", 5000⟩ true, .register true 0, .take 0, .finish 0 ⟨0, 0⟩ [],
    .complete 0 (.ok "bob smith\n") true 0, .take 0, .finish 0 ⟨0, 0⟩ [],
    .accept 2 ⟨"10.0.0.2", 5000⟩ true, .register true 0, .take 0, .finish 0 ⟨0, 0⟩ [],
    .complete 2 (.ok "#kick bob smith\n") true 0, .take 0]

/-- The state after `spacedThenKick`. -/
def spacedKickState : System := (boot.run noonClock spacedThenKick).get (by decide)

theorem spaced_name_beyond_moderation_kick :
    ∃ s', spacedKickState.step noonClock (.finish 0 ⟨0, 0⟩ []) = some s' ∧
      spacedKickState.app.clientNames.find? 1 = some "bob smith" ∧
      (spacedKickState.server.clients.find? 1).isSome ∧
      s'.server.clients.find? 1 = spacedKickState.server.clients.find? 1 ∧
      s'.app.connectionManager.mutedClients.find? 1 =
        spacedKickState.app.connectionManager.mutedClients.find? 1 :=
  have hp : spacedKickState.server.threadPool.finish 0 =
      some (.onMessage 2 "#kick bob smith\n",
        ((spacedKickState.server.threadPool.finish 0).get (by decide)).2) := rfl
  have ht : spacedKickState.app.SpacedName 1 := ⟨"bob smith", by decide, ' ', by decide, rfl⟩
  ⟨_, step_finish (by decide) (by decide) hp _ _, by decide, by decide,
    spaced_name_beyond_moderation hp (step_finish (by decide) (by decide) hp _ _) ht (by decide)⟩

end System

/-! ## The second mute check -/

namespace ConnectionManager

/-- An `IsMuted(c)` that answers `false` leaves `c` with no mute entry: there was none, or
the expired one was erased. -/
theorem isMuted_false {cm : ConnectionManager} {c now : Int} (h : (cm.isMuted c now).1 = false) :
    (cm.isMuted c now).2.mutedClients.find? c = none := by
  unfold isMuted at h ⊢
  split
  · assumption
  · next e he =>
    simp only [he] at h
    split
    · simp
    · next hexp => simp [hexp] at h

/-- Once `AllowMessage(c)` has passed, `c` has no mute entry. -/
theorem allowMessage_unmuted {cm : ConnectionManager} {c now : Int}
    (h : (cm.allowMessage c now).1 = true) :
    (cm.allowMessage c now).2.mutedClients.find? c = none := by
  rw [allowMessage_mutedClients]
  refine isMuted_false ?_
  cases hm : (cm.isMuted c now).1
  · rfl
  · simp [allowMessage, hm] at h

end ConnectionManager

/-- **A muted client is told that it sends too many messages.** `AllowMessage` refuses a
muted client first, so a chunk of it that is not empty after trimming gets the rate limit's
reply. And once `AllowMessage(c)` has passed, `c` has no mute entry, so the `IsMuted(c)` that
`HandleMessage` asks after `RecordMessage(c)` answers `false` at every later reading: the
reply `You are muted.` is never sent. -/
theorem muted_told_too_many (localTime : Int → Tm) (a : App) (srv : IOCPServer) (c : Int)
    (m : String) (clk : Clock) :
    ((a.connectionManager.isMuted c clk.steady).1 = true → trimTrailing m ≠ "" →
      (handleMessage localTime a srv c m clk).2 =
        sendToClient c "You are sending too many messages. Please slow down.") ∧
    ∀ later, (a.connectionManager.allowMessage c clk.steady).1 = true →
      (((a.connectionManager.allowMessage c clk.steady).2.recordMessage c clk.steady).isMuted c
        later).1 = false := by
  refine ⟨fun hmuted hne => ?_, fun later hallow => ?_⟩
  · have hrefused : (a.connectionManager.allowMessage c clk.steady).1 = false := by
      simp [ConnectionManager.allowMessage, hmuted]
    simp [handleMessage_eq, hne, hrefused]
  · have hnone := ConnectionManager.allowMessage_unmuted hallow
    simp [ConnectionManager.isMuted, hnone]

/-- Client 2 of `bobNamed`, muted for ever, sends `hi`. -/
def mutedBob : App :=
  { bobNamed with connectionManager := bobNamed.connectionManager.mute 2 0 0 }

theorem muted_told_too_many_bob :
    (mutedBob.connectionManager.isMuted 2 0).1 = true ∧ trimTrailing "hi\n" ≠ "" ∧
      (handleMessage (fun _ => ⟨126, 10, 8, 12, 0, 0⟩) mutedBob (IOCPServer.start (.new 1 1)) 2
        "hi\n" ⟨0, 0⟩).2 = sendToClient 2 "You are sending too many messages. Please slow down." :=
  ⟨by decide, by decide, (muted_told_too_many _ mutedBob (IOCPServer.start (.new 1 1)) 2 "hi\n"
    ⟨0, 0⟩).1 (by decide) (by decide)⟩

end ChatServer
