import ChatServer.Proof.Names
import ChatServer.Proof.Mute

/-!
# Kicking needs no privilege

`ProcessCommand` reads the command word and dispatches on it. The branch of `#kick` looks the
target up by name with `FindClient`, the first client of `g_client_names` in iteration order
that has the name, and disconnects it. Nothing on the way looks at who sent the command: the
help text of `main` marks `#kick` as an administrator's command, but the only checks a chunk
meets are those of `HandleMessage` (the rate limit and the mute check), and a chunk that
starts with `#` is a command even from a client that has not chosen its name yet.

* `processCommand_kick`: a command whose first word is `#kick` is `#kick`'s branch.
* `handleMessage_kick`: a chunk `#kick <n>` that passes the checks asks to disconnect
  `FindClient(n)` and logs the kick, whoever sends it.
* `anyone_can_kick`: in every run, while the server runs, the worker that finishes such a
  chunk of any client removes the client named `n` from the table and queues its
  `on_disconnect`.
-/

namespace ChatServer

variable (localTime : Int → Tm)

/-- A command whose first word is `#kick` is `#kick`'s branch. -/
theorem processCommand_kick (a : App) (srv : IOCPServer) (c : Int) (clk : Clock) {cmd : String}
    (h : ((Istream.mk cmd.toList true).readWord).1 = some "#kick") :
    processCommand localTime a srv c cmd clk =
      kickCommand a c (a.getClientName c) ((Istream.mk cmd.toList true).readWord).2 := by
  unfold processCommand
  dsimp only
  rw [h, Option.getD_some]
  simp

theorem kick_command_toList (n : String) :
    ("#kick " ++ n).toList = [] ++ "#kick".toList ++ (' ' :: n.toList) := by
  simp [String.toList]

/-- **A `#kick <n>` chunk that passes the checks disconnects `FindClient(n)`, whoever sends
it**, and logs the kick under the sender's name. -/
theorem handleMessage_kick (a : App) (srv : IOCPServer) {c : Int} {m : String} {clk : Clock}
    {a₁ : App} (h : afterChecks a c m clk = some a₁) {n : String}
    (hcmd : trimTrailing m = "#kick " ++ n) (hn : n.toList ≠ [])
    (hns : ∀ ch ∈ n.toList, isSpace ch = false) (hfound : a.findClient n ≠ -1) :
    Effect.disconnect (a.findClient n) ∈ (handleMessage localTime a srv c m clk).2 ∧
      (handleMessage localTime a srv c m clk).1.log = a.log ++ [.kicked (a.getClientName c) n] := by
  have hfront : (trimTrailing m).front = '#' := by rw [hcmd]; rfl
  have h₁ : (Istream.mk ("#kick " ++ n).toList true).readWord =
      (some "#kick", ⟨' ' :: n.toList, true⟩) := by
    rw [kick_command_toList]
    exact Istream.readWord_word (fun _ h => absurd h (List.not_mem_nil _)) (by decide) (by decide)
      fun _ h => by cases h; rfl
  have h₂ : (Istream.mk (' ' :: n.toList ++ []) true).readWord = (some n, ⟨[], false⟩) :=
    @Istream.readWord_word [' '] n.toList [] (by decide) hn hns fun _ h => by cases h
  rw [List.append_nil] at h₂
  rw [handleMessage_of_afterChecks localTime srv h, if_neg fun h' => h'.2 hfront, if_pos hfront,
    hcmd, processCommand_kick localTime a₁ srv c clk (by rw [h₁]), h₁, afterChecks_eq h]
  have hfc : ({ a with connectionManager := a₁.connectionManager } : App).findClient n =
      a.findClient n := rfl
  have hname : ({ a with connectionManager := a₁.connectionManager } : App).getClientName c =
      a.getClientName c := rfl
  simp only [kickCommand, h₂, Option.getD_some, hfc, hname, if_pos hfound]
  exact ⟨by simp, rfl⟩

namespace System

/-- A worker running a command does not stop in its handler: `HandleMessage` stops only for a
registration or a chat line. -/
theorem Inv.not_paused_of_command {s : System} (h : s.Inv) {w : Nat} {c : Int} {m : String}
    (hw : s.server.threadPool.workers[w]? = some (some (.onMessage c m)))
    (hfront : (trimTrailing m).front = '#') : s.paused.find? w = none := by
  cases hk : s.paused.find? w with
  | none => rfl
  | some k =>
    obtain ⟨t, hw', hfit⟩ := h.paused_fits w k hk
    rw [hw] at hw'
    cases hw'
    cases k with
    | admitted ip => exact hfit.elim
    | naming msg => exact absurd (hfit.1 ▸ hfront) hfit.2
    | stored name room message => exact absurd (hfit.1 ▸ hfront) hfit.2
    | releasing name room => exact hfit.elim

/-- **Any client can kick any named client.** In every run from the state `main` starts, while
the server runs, when a worker finishes a chunk `#kick <n>` of a client `c`, named or not, that
passes the rate limit and the mute check, and `FindClient(n)` finds a client, that client is
named `n`; after the step it is out of the table, its `on_disconnect` is queued, and the log
records that `c` kicked it, whatever the outcomes of the handler's `WSASend`s. -/
theorem anyone_can_kick {lt : Int → Tm} {conn : CMConfig} {poolSize processors : Nat}
    {fs : FileSystem} {wall : Int} {acts : List Action} {s s' : System}
    (hr : (init lt conn poolSize processors fs wall).run lt acts = some s)
    (hrun : s.server.running = true) {w : Nat} {c : Int} {m : String}
    (hw : s.server.threadPool.workers[w]? = some (some (.onMessage c m))) {clk : Clock}
    {sent : List Bool} (hs : s.step lt (.finish w clk sent) = some s') {a₁ : App}
    (hchecks : afterChecks s.app c m clk = some a₁) {n : String}
    (hcmd : trimTrailing m = "#kick " ++ n) (hn : n.toList ≠ [])
    (hns : ∀ ch ∈ n.toList, isSpace ch = false) (hfound : s.app.findClient n ≠ -1) :
    s.app.clientNames.find? (s.app.findClient n) = some n ∧
      s'.server.clients.find? (s.app.findClient n) = none ∧
      Task.onDisconnect (s.app.findClient n) ∈ s'.server.threadPool.history ∧
      LogLine.kicked (s.app.getClientName c) n ∈ s'.app.log := by
  have h := (inv_init lt conn poolSize processors fs wall).run hr
  obtain ⟨t, p, hp, ⟨htd, -⟩ | ⟨-, rfl⟩⟩ := step_finish_eq hs
  · simp [h.torn_stopped htd] at hrun
  have hwt := (ThreadPool.finish_eq hp).1
  rw [hw] at hwt
  cases hwt
  -- a command runs whole
  have hfront : (trimTrailing m).front = '#' := by rw [hcmd]; rfl
  have hrunTask : s.finishTask lt w clk (.onMessage c m) = handleMessage lt s.app s.server c m clk := by
    rw [System.finishTask, h.not_paused_of_command hw hfront]; rfl
  obtain ⟨hd, hlog⟩ := handleMessage_kick lt s.app s.server hchecks hcmd hn hns hfound
  have hstop : ({ s.server with threadPool := p } : IOCPServer).threadPool.stop = false :=
    (ThreadPool.history_finish hp).2.2.1.trans (h.server.running_stop hrun)
  obtain ⟨hgone, hqueued⟩ := IOCPServer.applyAll_disconnect (hrunTask ▸ hd) hstop sent
  refine ⟨App.find?_findClient hfound, hgone, hqueued, ?_⟩
  show LogLine.kicked (s.app.getClientName c) n ∈ (s.finishTask lt w clk (.onMessage c m)).1.log
  rw [hrunTask, hlog]
  exact List.mem_append_right _ (List.mem_singleton_self _)

/-- Client 1 connects and registers as `bob`, then client 2 connects. -/
def bobThenSecond : List Action :=
  [.accept 1 ⟨"10.0.0.1", 5000⟩ true, .register true 0, .take 0, .finish 0 ⟨0, 0⟩ [],
    .complete 0 (.ok "bob\n") true 0, .take 0, .finish 0 ⟨0, 0⟩ [],
    .accept 2 ⟨"10.0.0.2", 5000⟩ true, .register true 0, .take 0, .finish 0 ⟨0, 0⟩ []]

/-- After `bobThenSecond`, client 2, which has not chosen a name, sends `#kick bob` and a worker
takes the chunk. -/
def kickByUnnamed : List Action :=
  bobThenSecond ++ [.complete 2 (.ok "#kick bob\n") true 0, .take 0]

/-- The state after `kickByUnnamed`. -/
def kickState : System := (boot.run noonClock kickByUnnamed).get (by decide)

theorem anyone_can_kick_unnamed :
    ∃ s', kickState.step noonClock (.finish 0 ⟨0, 0⟩ []) = some s' ∧
      kickState.app.getClientName 2 = "User#2" ∧
      kickState.app.clientNames.find? (kickState.app.findClient "bob") = some "bob" ∧
      s'.server.clients.find? (kickState.app.findClient "bob") = none ∧
      Task.onDisconnect (kickState.app.findClient "bob") ∈ s'.server.threadPool.history ∧
      LogLine.kicked (kickState.app.getClientName 2) "bob" ∈ s'.app.log :=
  have hr : (init noonClock mainConnConfig 1 1 emptyDisk 0).run noonClock kickByUnnamed =
      some kickState := (Option.some_get _).symm
  have hs : kickState.step noonClock (.finish 0 ⟨0, 0⟩ []) = some _ :=
    (Option.some_get (by decide)).symm
  ⟨_, hs, by decide, anyone_can_kick (m := "#kick bob\n") hr (by decide) (by decide) hs
    (Option.some_get (by decide)).symm (by decide) (by decide) (by decide) (by decide)⟩

end System

end ChatServer
