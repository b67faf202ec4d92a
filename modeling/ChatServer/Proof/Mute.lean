import ChatServer.Spec.System
import Mathlib.Data.List.Chain

/-!
# Mutes

`Mute(c, s)` at reading `t0` stores the expiry `t0 + s` seconds, or the sentinel
`time_point::max()` for `s = 0`; `IsMuted(c)` erases an expired entry when it reads it, and
`AllowMessage(c)` calls `IsMuted(c)` first.

The meaning of a call history is eager: `lastMute c calls` is the last `Mute(c, s)` call with
no later `Unmute(c)` or `Mute(c, _)`, and `c` is muted at `t` when that call has `s = 0` or
`t ≤ t0 + s` seconds (`mutedAfter`). `MuteInv` ties the stored entry to it: a stored expiry is
the expiry of the last mute, and a missing entry with a last mute was erased after that mute
had expired. From it, **every `IsMuted(c)` answer agrees with the eager meaning**
(`is_muted_iff_last_mute`), whatever the other calls, as long as the clock readings never go
back and stay below `time_point::max()`.

`#mute <user> [seconds]` reads the duration with `iss >> duration` over a default of `60`. An
extraction that finds no digits stores `0`, and `Mute` takes `0` as permanent: a second word
that is not a number mutes the target for ever (`mute_word_forever`).
-/

namespace ChatServer.ConnectionManager

variable {c : Int}

/-! ## The meaning of a call history -/

/-- The last `Mute(c, s)` at `t0`, as `(s, t0)`, after one more call. -/
def lastMuteStep (c : Int) (last : Option (Int × Int)) : Call → Option (Int × Int)
  | .mute c' s t0 => if c' = c then some (s, t0) else last
  | .unmute c' => if c' = c then none else last
  | _ => last

/-- The last `Mute(c, s)` call of the history with no later `Unmute(c)` or `Mute(c, _)`. -/
def lastMute (c : Int) (calls : List Call) : Option (Int × Int) :=
  calls.foldl (lastMuteStep c) none

/-- Muted at reading `t` by the mute `(s, t0)`: for ever when `s = 0`, else up to `t0 + s`
seconds inclusive. -/
def mutedBy : Option (Int × Int) → Int → Bool
  | some (s, t0), t => decide (s = 0 ∨ t ≤ t0 + seconds s)
  | none, _ => false

/-- `c` is muted at reading `t` after the calls. -/
def mutedAfter (c : Int) (calls : List Call) (t : Int) : Bool := mutedBy (lastMute c calls) t

/-! ## What the calls do to the entry of `c` -/

@[simp] theorem allowConnection_mutedClients (cm : ConnectionManager) (ip : String) (now : Int) :
    (cm.allowConnection ip now).2.mutedClients = cm.mutedClients := by
  unfold allowConnection; dsimp only; split_ifs <;> rfl

theorem allowMessage_mutedClients (cm : ConnectionManager) (c now : Int) :
    (cm.allowMessage c now).2.mutedClients = (cm.isMuted c now).2.mutedClients := by
  unfold allowMessage; dsimp only; split <;> rfl

@[simp] theorem onDisconnect_mutedClients (cm : ConnectionManager) :
    cm.onDisconnect.mutedClients = cm.mutedClients := by
  unfold onDisconnect; split <;> rfl

/-- `IsMuted(c')` touches no other client's entry. -/
theorem isMuted_find?_of_ne (cm : ConnectionManager) {c' : Int} (now : Int) (h : c ≠ c') :
    (cm.isMuted c' now).2.mutedClients.find? c = cm.mutedClients.find? c := by
  unfold isMuted; split <;> (try split) <;> simp [h]

/-! ## The invariant -/

/-- The entry of `c` against the last mute `last`, with `L` the latest reading so far. -/
structure MuteInv (c : Int) (cm : ConnectionManager) (last : Option (Int × Int)) (L : Int) :
    Prop where
  stored : ∀ e, cm.mutedClients.find? c = some e →
    ∃ s t0, last = some (s, t0) ∧ e = if s = 0 then timePointMax else t0 + seconds s
  erased : cm.mutedClients.find? c = none →
    ∀ s t0, last = some (s, t0) → s ≠ 0 ∧ t0 + seconds s < L

/-- Only the entry of `c` matters, and a later reading keeps an erased entry expired. -/
theorem MuteInv.of_find? {cm cm' : ConnectionManager} {last : Option (Int × Int)} {L L' : Int}
    (h : MuteInv c cm last L) (hf : cm'.mutedClients.find? c = cm.mutedClients.find? c)
    (hL : L ≤ L') : MuteInv c cm' last L' :=
  ⟨fun e he => h.stored e (hf ▸ he), fun hn s t0 hs => by
    have := h.erased (hf ▸ hn) s t0 hs; omega⟩

theorem muteInv_new (config : CMConfig) (L : Int) : MuteInv c (new config) none L :=
  ⟨fun e he => by simp [new] at he, fun _ _ _ h => by cases h⟩

/-- **`IsMuted(c)` answers the eager meaning**, and keeps the invariant at its own reading. -/
theorem MuteInv.query {cm : ConnectionManager} {last : Option (Int × Int)} {L t : Int}
    (h : MuteInv c cm last L) (hL : L ≤ t) (ht : t ≤ timePointMax) :
    (cm.isMuted c t).1 = mutedBy last t ∧ MuteInv c (cm.isMuted c t).2 last t := by
  cases hf : cm.mutedClients.find? c with
  | none =>
    simp only [isMuted, hf]
    refine ⟨?_, h.of_find? rfl hL⟩
    cases last with
    | none => rfl
    | some p =>
      obtain ⟨s, t0⟩ := p
      obtain ⟨hs, hlt⟩ := h.erased hf s t0 rfl
      simp only [mutedBy, hs, false_or]
      simpa using hlt.trans_le hL
  | some e =>
    obtain ⟨s, t0, rfl, rfl⟩ := h.stored e hf
    by_cases hs : s = 0
    · subst hs
      simp [isMuted, hf, mutedBy, h.of_find? rfl hL]
    · simp only [isMuted, hf, hs, if_false, mutedBy, false_or]
      split
      · rename_i hexp
        refine ⟨by simpa using hexp.2, ?_, ?_⟩
        · intro e he; simp at he
        · intro _ s' t0' he; cases he; exact ⟨hs, hexp.2⟩
      · rename_i hexp
        refine ⟨?_, h.of_find? rfl hL⟩
        simp only [decide_eq_true_eq]
        by_cases hmax : t0 + seconds s = timePointMax <;> simp_all

/-- One call keeps the invariant, at the call's reading when it reads the clock. -/
theorem MuteInv.step {cm : ConnectionManager} {last : Option (Int × Int)} {L : Int}
    (h : MuteInv c cm last L) (call : Call)
    (hr : ∀ t, call.reading? = some t → L ≤ t ∧ t ≤ timePointMax) :
    MuteInv c (cm.exec call).2 (lastMuteStep c last call) (call.reading?.getD L) := by
  cases call with
  | allowMessage c' now =>
    have hquery : MuteInv c (cm.isMuted c' now).2 last now := by
      by_cases hc : c = c'
      · subst hc; exact (h.query (hr now rfl).1 (hr now rfl).2).2
      · exact h.of_find? (isMuted_find?_of_ne cm now hc) (hr now rfl).1
    exact hquery.of_find? (by rw [exec, Prod.map_snd, id, allowMessage_mutedClients]) le_rfl
  | isMuted c' now =>
    by_cases hc : c = c'
    · subst hc; exact (h.query (hr now rfl).1 (hr now rfl).2).2
    · exact h.of_find? (isMuted_find?_of_ne cm now hc) (hr now rfl).1
  | mute c' s now =>
    by_cases hc : c' = c
    · subst hc
      refine ⟨fun e he => ⟨s, now, by simp [lastMuteStep], ?_⟩, fun hn => ?_⟩
      · simp only [exec, mute, UnorderedMap.find?_set, ite_true, Option.some.injEq] at he
        exact he.symm
      · simp [exec, mute] at hn
    · simpa [lastMuteStep, hc] using
        h.of_find? (show (cm.mute c' s now).mutedClients.find? c = _ by simp [mute, Ne.symm hc])
          (hr now rfl).1
  | unmute c' =>
    by_cases hc : c' = c
    · subst hc
      exact ⟨fun e he => by simp [exec, unmute] at he, fun _ _ _ he => by
        simp [lastMuteStep] at he⟩
    · simpa [lastMuteStep, hc] using
        h.of_find? (show (cm.unmute c').mutedClients.find? c = _ by simp [unmute, Ne.symm hc])
          le_rfl
  | allowConnection ip now => exact h.of_find? (by simp [exec]) (hr now rfl).1
  | recordMessage c' now => exact h.of_find? rfl (hr now rfl).1
  | checkTimeouts clients now => exact h.of_find? rfl (hr now rfl).1
  | updateActivity c' now => exact h.of_find? rfl (hr now rfl).1
  | onDisconnect => exact h.of_find? (by simp [exec]) le_rfl
  | isBanned _ | ban _ | unban _ | onConnect | getConnectionCount => exact h.of_find? rfl le_rfl

/-! ## Runs -/

/-- The readings of a run that starts at `L` and never goes back, split at its first call. -/
theorem chain_readings_cons {call : Call} {calls : List Call} {L : Int}
    (h : ((call :: calls).filterMap Call.reading?).Chain (· ≤ ·) L) :
    (∀ t, call.reading? = some t → L ≤ t) ∧
      (calls.filterMap Call.reading?).Chain (· ≤ ·) (call.reading?.getD L) := by
  cases hr : call.reading? with
  | none => simpa [List.filterMap_cons, hr] using h
  | some t => simpa [List.filterMap_cons, hr, List.chain_cons] using h

/-- Along a run whose readings never go back and stay below `time_point::max()`, every
`IsMuted(c)` answers the eager meaning of the calls before it. -/
theorem MuteInv.run : ∀ (calls : List Call) {cm : ConnectionManager}
    {last : Option (Int × Int)} {L : Int}, MuteInv c cm last L →
    (calls.filterMap Call.reading?).Chain (· ≤ ·) L →
    (∀ t ∈ calls.filterMap Call.reading?, t ≤ timePointMax) →
    ∀ (i : Nat) (t : Int), calls[i]? = some (.isMuted c t) →
      (cm.runCalls calls).1[i]? = some (.bool (mutedBy ((calls.take i).foldl (lastMuteStep c) last) t))
  | [], _, _, _, _, _, _, i, t, hi => by simp at hi
  | call :: calls, cm, last, L, h, hchain, hmax, i, t, hi => by
    obtain ⟨hle, hrest⟩ := chain_readings_cons hchain
    have hmax' : ∀ t, call.reading? = some t → L ≤ t ∧ t ≤ timePointMax := fun t ht =>
      ⟨hle t ht, hmax t (by simp [List.filterMap_cons, ht])⟩
    cases i with
    | zero =>
      obtain rfl : call = .isMuted c t := by simpa using hi
      simp [ConnectionManager.runCalls, exec, (h.query (hle t rfl) (hmax' t rfl).2).1]
    | succ i =>
      have hrun := MuteInv.run calls (h.step call hmax') hrest
        (fun t ht => hmax t (by cases hr : call.reading? <;> simp [List.filterMap_cons, hr, ht]))
        i t (by simpa using hi)
      simpa [ConnectionManager.runCalls] using hrun

/-- The answer of one more call after a run. -/
theorem runCalls_append_singleton (cm : ConnectionManager) (calls : List Call) (call : Call) :
    (cm.runCalls (calls ++ [call])).1[calls.length]? =
      some ((cm.runCalls calls).2.exec call).1 := by
  induction calls generalizing cm with
  | nil => rfl
  | cons call' calls ih => simpa [ConnectionManager.runCalls] using ih (cm.exec call').2

/-- **Mutes have their eager meaning.** From the constructor, along every sequence of calls whose
clock readings never go back and are readings of the steady clock (at most
`time_point::max()`), every `IsMuted(c)` call at reading `t` returns true exactly when the last
`Mute(c, s)` before it, at `t0` and with no `Unmute(c)` or `Mute(c, _)` after it, has `s = 0` or
`t ≤ t0 + s` seconds; and so does an `IsMuted(c)` at any later reading after the run. -/
theorem is_muted_iff_last_mute (config : CMConfig) (c : Int) (calls : List Call)
    (hmono : (calls.filterMap Call.reading?).Chain' (· ≤ ·))
    (hmax : ∀ t ∈ calls.filterMap Call.reading?, t ≤ timePointMax) :
    (∀ (i : Nat) (t : Int), calls[i]? = some (.isMuted c t) →
      ((new config).runCalls calls).1[i]? = some (.bool (mutedAfter c (calls.take i) t))) ∧
    ∀ t, (∀ t' ∈ calls.filterMap Call.reading?, t' ≤ t) → t ≤ timePointMax →
      (((new config).runCalls calls).2.isMuted c t).1 = mutedAfter c calls t := by
  have hstart : ∀ l : List Int, l.Chain' (· ≤ ·) → l.Chain (· ≤ ·) (l.head?.getD 0) := by
    rintro (_ | ⟨a, l⟩) hl
    · exact List.Chain.nil
    · exact List.Chain.cons le_rfl hl
  have hrun := fun l (hl : (l.filterMap Call.reading?).Chain' (· ≤ ·)) hm =>
    MuteInv.run (c := c) l (muteInv_new config _) (hstart _ hl) hm
  refine ⟨hrun calls hmono hmax, fun t ht htmax => ?_⟩
  -- a query at `t` after the run is one more call of the run
  have hsnoc : (calls ++ [Call.isMuted c t]).filterMap Call.reading? =
      calls.filterMap Call.reading? ++ [t] := by
    simp [Call.reading?]
  have hq := hrun (calls ++ [.isMuted c t])
    (hsnoc ▸ List.chain'_append.2 ⟨hmono, List.chain'_singleton t, fun x hx y hy => by
      obtain rfl : t = y := by simpa using hy
      exact ht x (List.mem_of_mem_getLast? hx)⟩)
    (hsnoc ▸ fun t' h' => by
      rcases List.mem_append.1 h' with h' | h'
      · exact (ht t' h').trans htmax
      · exact (List.mem_singleton.1 h') ▸ htmax)
    calls.length t (by simp)
  rw [runCalls_append_singleton] at hq
  simpa [exec, mutedAfter, lastMute] using hq

/-- A permanent mute, queried three times: never erased. -/
theorem is_muted_iff_last_mute_forever :
    let calls := [Call.mute 1 0 0, .isMuted 1 (seconds 5), .isMuted 1 (seconds 50)]
    ((calls.filterMap Call.reading?).Chain' (· ≤ ·) ∧
        ∀ t ∈ calls.filterMap Call.reading?, t ≤ timePointMax) ∧
      ((∀ (i : Nat) (t : Int), calls[i]? = some (.isMuted 1 t) →
        ((new {}).runCalls calls).1[i]? = some (.bool (mutedAfter 1 (calls.take i) t))) ∧
      ∀ t, (∀ t' ∈ calls.filterMap Call.reading?, t' ≤ t) → t ≤ timePointMax →
        (((new {}).runCalls calls).2.isMuted 1 t).1 = mutedAfter 1 calls t) :=
  have hmono : ([Call.mute 1 0 0, .isMuted 1 (seconds 5), .isMuted 1 (seconds 50)].filterMap
      Call.reading?).Chain' (· ≤ ·) := by simp [Call.reading?, seconds]
  ⟨⟨hmono, by decide⟩, is_muted_iff_last_mute {} 1 _ hmono (by decide)⟩

end ChatServer.ConnectionManager

namespace ChatServer

/-! ## The `#mute` command -/

/-- `iss >> s` after blanks `pre`: the word `w` up to the next blank, or to the end. -/
theorem Istream.readWord_word {pre w tail : List Char} (hpre : ∀ ch ∈ pre, isSpace ch = true)
    (hw : w ≠ []) (hws : ∀ ch ∈ w, isSpace ch = false)
    (htail : ∀ ch ∈ tail.head?, isSpace ch = true) :
    (Istream.mk (pre ++ w ++ tail) true).readWord = (some ⟨w⟩, ⟨tail, !tail.isEmpty⟩) := by
  obtain ⟨x, xs, rfl⟩ := List.exists_cons_of_ne_nil hw
  have hnot : ∀ ch ∈ x :: xs, (!isSpace ch) = true := fun ch h => by simp [hws ch h]
  have htl : tail.takeWhile (fun ch => !isSpace ch) = [] ∧
      tail.dropWhile (fun ch => !isSpace ch) = tail := by
    cases tail with
    | nil => simp
    | cons y ys => simp [htail y rfl]
  have hd : (pre ++ x :: xs ++ tail).dropWhile isSpace = x :: (xs ++ tail) := by
    rw [List.append_assoc, List.dropWhile_append_of_pos hpre, List.cons_append,
      List.dropWhile_cons_of_neg (by simp [hws x (List.mem_cons_self _ _)])]
  have ht : (x :: (xs ++ tail)).takeWhile (fun ch => !isSpace ch) = x :: xs := by
    rw [← List.cons_append, List.takeWhile_append_of_pos hnot, htl.1, List.append_nil]
  have hr : (x :: (xs ++ tail)).dropWhile (fun ch => !isSpace ch) = tail := by
    rw [← List.cons_append, List.dropWhile_append_of_pos hnot, htl.2]
  simp only [Istream.readWord, Bool.not_true, Bool.false_eq_true, if_false, hd, ht, hr]

/-- `iss >> n` after blanks, on a character that is neither a digit nor a sign: no digits, so
`0` is stored. -/
theorem Istream.readInt_non_number {pre w : List Char} (hpre : ∀ ch ∈ pre, isSpace ch = true)
    {x : Char} (hx : isSpace x = false) (hd : x.isDigit = false) (hm : x ≠ '-') (hp : x ≠ '+') :
    (Istream.mk (pre ++ x :: w) true).readInt.1 = some 0 := by
  have hdrop : (pre ++ x :: w).dropWhile isSpace = x :: w := by
    rw [List.dropWhile_append_of_pos hpre, List.dropWhile_cons_of_neg (by simp [hx])]
  simp [Istream.readInt, hdrop, hm, hp, hd]

/-- A command whose first word is `#mute` is `#mute`'s branch. -/
theorem processCommand_mute (localTime : Int → Tm) (a : App) (srv : IOCPServer) (c : Int)
    (clk : Clock) {cmd : String} (h : ((Istream.mk cmd.toList true).readWord).1 = some "#mute") :
    processCommand localTime a srv c cmd clk =
      muteCommand a c (a.getClientName c) ((Istream.mk cmd.toList true).readWord).2 clk.steady := by
  unfold processCommand
  dsimp only
  rw [h, Option.getD_some]
  simp

theorem mute_command_toList (n w : String) :
    ("#mute " ++ n ++ " " ++ w).toList = "#mute".toList ++ (' ' :: (n.toList ++ ' ' :: w.toList)) := by
  simp [String.toList]

/-- **`#mute <user> <word>` with a word that is not a number mutes for ever.** For every
application state, a `#mute` of a named target whose second word begins with neither a digit
nor a sign stores the permanent sentinel for the target, so that `IsMuted` answers true at
every reading, and both replies say `0 seconds`; the source's default is `60` seconds. -/
theorem mute_word_forever (localTime : Int → Tm) (a : App) (srv : IOCPServer) (c : Int)
    (clk : Clock) {n w : String} (hn : n.toList ≠ []) (hns : ∀ ch ∈ n.toList, isSpace ch = false)
    {x : Char} (hw : w.toList.head? = some x) (hx : isSpace x = false) (hd : x.isDigit = false)
    (hm : x ≠ '-') (hp : x ≠ '+') (htarget : a.findClient n ≠ -1) :
    (processCommand localTime a srv c ("#mute " ++ n ++ " " ++ w) clk).1.connectionManager.mutedClients.find?
        (a.findClient n) = some timePointMax ∧
      (∀ now, ((processCommand localTime a srv c ("#mute " ++ n ++ " " ++ w)
        clk).1.connectionManager.isMuted (a.findClient n) now).1 = true) ∧
      (processCommand localTime a srv c ("#mute " ++ n ++ " " ++ w) clk).2 =
        sendToClient (a.findClient n) "You have been muted for 0 seconds" ++
          sendToClient c ("Muted " ++ n ++ " for 0 seconds") := by
  have hw' : w.toList = x :: w.toList.tail := by
    cases h : w.toList with
    | nil => rw [h] at hw; cases hw
    | cons y ys => rw [h] at hw; cases hw; rfl
  have hblank : ∀ ch ∈ [' '], isSpace ch = true := by decide
  have h₁ : (Istream.mk ("#mute " ++ n ++ " " ++ w).toList true).readWord =
      (some "#mute", ⟨' ' :: (n.toList ++ ' ' :: w.toList), true⟩) := by
    rw [mute_command_toList]
    exact Istream.readWord_word (fun _ h => absurd h (List.not_mem_nil _)) (by decide) (by decide)
      fun _ h => by cases h; rfl
  have h₂ : (Istream.mk (' ' :: (n.toList ++ ' ' :: w.toList)) true).readWord =
      (some n, ⟨' ' :: w.toList, true⟩) :=
    Istream.readWord_word hblank hn hns fun _ h => by cases h; rfl
  have h₃ : (Istream.mk (' ' :: w.toList) true).readInt.1 = some 0 := by
    rw [hw']
    exact Istream.readInt_non_number hblank hx hd hm hp
  have e₁ : "You have been muted for " ++ toString (0 : Int) ++ " seconds" =
      "You have been muted for 0 seconds" := by decide
  have e₂ : "Muted " ++ n ++ " for " ++ toString (0 : Int) ++ " seconds" =
      "Muted " ++ n ++ " for 0 seconds" := by
    rw [String.append_assoc, String.append_assoc]; rfl
  have hr : processCommand localTime a srv c ("#mute " ++ n ++ " " ++ w) clk =
      ({ a with connectionManager := a.connectionManager.mute (a.findClient n) 0 clk.steady }.print
          (.muted (a.getClientName c) n),
        sendToClient (a.findClient n) "You have been muted for 0 seconds" ++
          sendToClient c ("Muted " ++ n ++ " for 0 seconds")) := by
    rw [processCommand_mute localTime a srv c clk (by rw [h₁])]
    simp only [h₁, muteCommand, h₂, h₃]
    simp [htarget, e₁, e₂]
  have hstored : (a.connectionManager.mute (a.findClient n) 0 clk.steady).mutedClients.find?
      (a.findClient n) = some timePointMax := by
    simp [ConnectionManager.mute]
  rw [hr]
  exact ⟨hstored, fun now => by simp [App.print, ConnectionManager.isMuted, hstored], rfl⟩

/-- An application state in which client 2 is named `bob`. -/
def bobNamed : App :=
  { (System.init (fun _ => ⟨126, 10, 8, 12, 0, 0⟩) mainConnConfig 1 1 ⟨fun _ => 0, [], fun _ => true, fun _ => true⟩
      0).app with clientNames := UnorderedMap.empty.set 2 "bob" }

theorem mute_word_forever_bob :
    bobNamed.findClient "bob" = 2 ∧
      (processCommand (fun _ => ⟨126, 10, 8, 12, 0, 0⟩) bobNamed (IOCPServer.start (.new 1 1)) 1
        ("#mute " ++ "bob" ++ " " ++ "forever") ⟨0, 0⟩).1.connectionManager.mutedClients.find?
          (bobNamed.findClient "bob") = some timePointMax ∧
      (∀ now, ((processCommand (fun _ => ⟨126, 10, 8, 12, 0, 0⟩) bobNamed
        (IOCPServer.start (.new 1 1)) 1 ("#mute " ++ "bob" ++ " " ++ "forever")
          ⟨0, 0⟩).1.connectionManager.isMuted (bobNamed.findClient "bob") now).1 = true) ∧
      (processCommand (fun _ => ⟨126, 10, 8, 12, 0, 0⟩) bobNamed (IOCPServer.start (.new 1 1)) 1
        ("#mute " ++ "bob" ++ " " ++ "forever") ⟨0, 0⟩).2 =
        sendToClient (bobNamed.findClient "bob") "You have been muted for 0 seconds" ++
          sendToClient 1 ("Muted " ++ "bob" ++ " for 0 seconds") :=
  ⟨by decide, mute_word_forever _ _ _ _ _ (by decide) (by decide) (x := 'f') rfl (by decide)
    (by decide) (by decide) (by decide) (by decide)⟩

end ChatServer
