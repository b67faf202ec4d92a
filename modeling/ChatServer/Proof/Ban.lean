import ChatServer.Proof.Lifecycle

/-!
# Banning

Nothing in the server calls `Unban`, so a banned text stays banned, and every later
`HandleConnect` of a socket whose `GetSocketAddress` is that text is refused. But `#ban`
looks the target up with `GetClient` and bans its `ip_address`, which `HandleAccept` took
from `GetSocketAddress`: the peer's address and its port. `AllowConnection` compares the
`GetSocketAddress` of the new socket with the banned texts, so a reconnection from another
port of the same address is admitted.
-/

namespace ChatServer

open ConnectionManager

theorem handleConnect_bannedIps (a : App) (srv : IOCPServer) (c : Int) (sock : Socket) (now : Int) :
    (handleConnect a srv c sock now).1.connectionManager.bannedIps = a.connectionManager.bannedIps := by
  rw [handleConnect_eq]
  dsimp only
  split <;> simp [App.print]

/-- `HandleConnect` of a socket whose address text is banned refuses it. -/
theorem handleConnect_banned {a : App} {srv : IOCPServer} {sock : Socket}
    (h : srv.socketAddress sock ∈ a.connectionManager.bannedIps) (c now : Int) :
    (handleConnect a srv c sock now).1.log = a.log ++ [.rejected (srv.socketAddress sock)] ∧
      (handleConnect a srv c sock now).2 = [.disconnect c] := by
  have hb : a.connectionManager.isBanned (srv.socketAddress sock) = true := by
    simpa [isBanned] using h
  rw [handleConnect_eq]
  simp [allowConnection, hb, App.print]

theorem runTask_bans (localTime : Int → Tm) {a : App} {ip : String}
    (h : ip ∈ a.connectionManager.bannedIps) (srv : IOCPServer) (clk : Clock) (t : Task) :
    ip ∈ (runTask localTime a srv clk t).1.connectionManager.bannedIps := by
  cases t with
  | onConnect c sock => rw [runTask, handleConnect_bannedIps]; exact h
  | onMessage c m => exact (handleMessage_ok localTime (a := a) (c := c) srv m clk).1.bans ip h
  | onDisconnect c => simpa [runTask, (handleDisconnect_spec a c).2.2.2.2] using h

namespace System

variable {localTime : Int → Tm} {s s' : System}

theorem step_bans {ip : String} (h : ip ∈ s.app.connectionManager.bannedIps) {a : Action}
    (hs : s.step localTime a = some s') : ip ∈ s'.app.connectionManager.bannedIps := by
  rcases step_app hs with he | ⟨clk, t, k, hb⟩ | ⟨clk, t, he⟩ | ⟨c, k, he⟩ | ⟨now, he⟩
  · rwa [he]
  · by_cases hd : ∀ c, t ≠ .onDisconnect c
    · exact (beginTask_appStep localTime hb hd).bans ip h
    · -- `HandleDisconnect` stops after `LeaveRoom`, with the controller as it was
      obtain ⟨c, rfl⟩ := not_forall_not.1 hd
      rcases beginTask_stopped_eq localTime hb with ⟨_, _, h', -⟩ | ⟨_, _, h', -⟩ | ⟨_, -, -, -, ha⟩
      · cases h'
      · cases h'
      · rwa [ha]
  · rw [he]; exact runTask_bans localTime h _ clk t
  · rw [he]
    cases k with
    | admitted ip' =>
      rw [Resume.run, (connectAdmitted_spec s.app c ip').2.2.2.2]
      exact h
    | naming msg => exact (registerName_ok (a := s.app) (c := c) msg).1.bans ip h
    | stored name room message => exact (broadcastSend_ok (a := s.app) (c := c) name room message).1.bans ip h
    | releasing name room => exact h
  · rwa [he]

theorem run_bans {ip : String} (h : ip ∈ s.app.connectionManager.bannedIps) {acts : List Action}
    (hr : s.run localTime acts = some s') : ip ∈ s'.app.connectionManager.bannedIps :=
  run_preserves (fun hs h => step_bans h hs) hr h

/-- **A banned address text stays banned**, and every later `HandleConnect` of a socket with
that text is refused: the server prints the rejection and disconnects the client. -/
theorem ban_refuses_same_address {acts : List Action} (hr : s.run localTime acts = some s')
    {ip : String} (hban : ip ∈ s.app.connectionManager.bannedIps) (c : Int) (sock : Socket)
    (now : Int) (hip : s'.server.socketAddress sock = ip) :
    ip ∈ s'.app.connectionManager.bannedIps ∧
      (handleConnect s'.app s'.server c sock now).1.log = s'.app.log ++ [.rejected ip] ∧
      (handleConnect s'.app s'.server c sock now).2 = [.disconnect c] := by
  have hb := run_bans hban hr
  subst hip
  exact ⟨hb, handleConnect_banned hb c now⟩

/-- Clients 1 (`10.0.0.1:5000`) and 2 connect; client 1 names itself `alice`; client 2 bans
`alice`; then `10.0.0.1` connects again from port `5001`. -/
def banThenReconnect : List Action :=
  [.accept 1 ⟨"10.0.0.1", 5000⟩ true, .register true 0, .accept 2 ⟨"10.0.0.2", 5000⟩ true, .register true 0,
    .take 0, .finish 0 ⟨0, 0⟩ [], .take 0, .finish 0 ⟨0, 0⟩ [],
    .complete 0 (.ok "alice\n") true 0, .take 0, .finish 0 ⟨0, 0⟩ [],
    .complete 0 (.ok "#ban alice\n") true 0, .take 0, .finish 0 ⟨0, 0⟩ [],
    .accept 3 ⟨"10.0.0.1", 5001⟩ true, .register true 0, .take 0, .finish 0 ⟨0, 0⟩ [], .take 0, .finish 0 ⟨0, 0⟩ []]

theorem banned_address_reconnects :
    ∃ s, boot.run noonClock banThenReconnect = some s ∧
      s.app.connectionManager.bannedIps.elems = ["10.0.0.1:5000"] ∧
      s.app.log = [.connected 1 "10.0.0.1:5000", .connected 2 "10.0.0.2:5000",
        .registered 1 "alice", .banned "User#2" "alice", .disconnected 1 "alice",
        .connected 3 "10.0.0.1:5001"] :=
  ⟨_, (Option.some_get (by decide)).symm, by decide, by decide⟩

/-- The address banned above connects again from the same port. -/
def samePort : List Action := [.accept 4 ⟨"10.0.0.1", 5000⟩ true, .register true 0]

theorem ban_refuses_same_address_port :
    ∃ s s', boot.run noonClock banThenReconnect = some s ∧ s.run noonClock samePort = some s' ∧
      "10.0.0.1:5000" ∈ s.app.connectionManager.bannedIps ∧
      s'.server.socketAddress 4 = "10.0.0.1:5000" ∧
      "10.0.0.1:5000" ∈ s'.app.connectionManager.bannedIps ∧
      (handleConnect s'.app s'.server 4 4 0).1.log = s'.app.log ++ [.rejected "10.0.0.1:5000"] ∧
      (handleConnect s'.app s'.server 4 4 0).2 = [.disconnect 4] :=
  have h₂ : ((boot.run noonClock banThenReconnect).get (by decide)).run noonClock samePort =
      some _ := (Option.some_get (by decide)).symm
  ⟨_, _, (Option.some_get _).symm, h₂, by decide, by decide,
    ban_refuses_same_address h₂ (by decide) 4 4 0 (by decide)⟩

end System

end ChatServer
