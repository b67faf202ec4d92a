import ChatServer.Spec.ConnectionManager

/-!
# Sliding windows

Both limiters of the controller keep a deque of readings, drop from its front the readings
older than a cutoff `now - W` (`pruneOlder`), and admit a new reading only while the deque is
shorter than a cap. `Window.Inv` relates the deque `d` to the history `H` of all admitted
readings: `H` is some pruned readings, all older than the last cutoff, followed by `d`; and
no closed interval of length `W` holds more than `cap` readings of `H`.

* `Window.Inv.prune`: pruning at a later cutoff keeps the invariant.
* `Window.Inv.push`: admitting a reading at least `W` after the cutoff while the deque is
  below the cap keeps it. The interval bound is then a consequence of the pruning order
  alone: the deque need not be sorted.
-/

namespace ChatServer.Window

/-- The number of readings of `H` in the closed interval `[x, x + W]`. -/
def countIn (W x : Int) (H : List Int) : Nat :=
  (H.filter fun t => decide (x ≤ t ∧ t ≤ x + W)).length

theorem countIn_append_singleton (W x r : Int) (H : List Int) :
    countIn W x (H ++ [r]) = countIn W x H + if x ≤ r ∧ r ≤ x + W then 1 else 0 := by
  unfold countIn
  rw [List.filter_append, List.length_append]
  split <;> simp_all

/-- The deque `d` and the history `H` of a sliding window whose last cutoff is `cut`. -/
structure Inv (W : Int) (cap : Nat) (cut : Int) (d H : List Int) : Prop where
  split : ∃ P, H = P ++ d ∧ ∀ p ∈ P, p < cut
  bound : ∀ x, countIn W x H ≤ cap

variable {W : Int} {cap : Nat} {cut : Int} {d H : List Int}

theorem inv_nil (W : Int) (cap : Nat) (cut : Int) : Inv W cap cut [] [] :=
  ⟨⟨[], rfl, by simp⟩, fun x => by simp [countIn]⟩

theorem Inv.prune (h : Inv W cap cut d H) {cut' : Int} (hc : cut ≤ cut') :
    Inv W cap cut' (pruneOlder d cut') H := by
  obtain ⟨P, rfl, hP⟩ := h.split
  refine ⟨⟨P ++ d.takeWhile fun t => decide (t < cut'), ?_, ?_⟩, h.bound⟩
  · rw [pruneOlder, List.append_assoc, List.takeWhile_append_dropWhile]
  · intro p hp
    rcases List.mem_append.1 hp with hp | hp
    · exact lt_of_lt_of_le (hP p hp) hc
    · simpa using List.mem_takeWhile_imp hp

theorem Inv.push (h : Inv W cap cut d H) (hlen : d.length < cap) {r : Int}
    (hr : cut + W ≤ r) : Inv W cap cut (d ++ [r]) (H ++ [r]) := by
  obtain ⟨P, rfl, hP⟩ := h.split
  refine ⟨⟨P, by simp, hP⟩, fun x => ?_⟩
  rw [countIn_append_singleton]
  split
  · rename_i hx
    -- every pruned reading is older than the cutoff, hence than `x`
    have hP0 : (P.filter fun t => decide (x ≤ t ∧ t ≤ x + W)) = [] :=
      List.filter_eq_nil_iff.2 fun p hp => by have := hP p hp; simp; omega
    have : countIn W x (P ++ d) ≤ d.length := by
      simp only [countIn, List.filter_append, hP0, List.nil_append]
      exact List.length_filter_le _ _
    omega
  · simpa using h.bound x

end ChatServer.Window
