import EngineConsole.Bytes.Sink

/-!
# Handing chunks over

Whatever a sink does with its chunks, it is handed a list of them in one way: one after the other up to the first that it refuses, whose failure is passed on, and none after that one. What each kind of sink has in the end follows from this rule and from what it does with a single chunk.
-/

namespace EngineConsole.Sink

variable {σ ε : Type}

/-- The chunks are handed over to a sink that takes or refuses one by `accept`: in order, up to the first that is refused. -/
inductive Handed (accept : Bytes → EStateM ε σ Unit) :
    List Bytes → σ → EStateM.Result ε σ Unit → Prop
  | done (sink : σ) : Handed accept [] sink (.ok () sink)
  /-- The next chunk is taken, and the others are handed over behind it. -/
  | taken {chunk : Bytes} {chunks : List Bytes} {sink middle : σ} {result : EStateM.Result ε σ Unit}
      (first : accept chunk sink = .ok () middle) (others : Handed accept chunks middle result) :
      Handed accept (chunk :: chunks) sink result
  /-- The next chunk is refused. Its failure is the outcome, and no other chunk is offered. -/
  | refused {chunk : Bytes} {chunks : List Bytes} {sink after : σ} {failure : ε}
      (first : accept chunk sink = .error failure after) :
      Handed accept (chunk :: chunks) sink (.error failure after)

theorem handed_forM (accept : Bytes → EStateM ε σ Unit) (chunks : List Bytes) (sink : σ) :
    Handed accept chunks sink (chunks.forM accept sink) := by
  induction chunks generalizing sink with
  | nil => exact .done sink
  | cons chunk chunks ih =>
    simp only [List.forM_eq_forM, List.forM_cons, bind, EStateM.bind] at ih ⊢
    cases haccept : accept chunk sink with
    | ok _ middle => exact .taken haccept (ih middle)
    | error failure after => exact .refused haccept

theorem writeAll_eq_forM (chunks : List Bytes) : writeAll chunks = chunks.forM write := by
  induction chunks with
  | nil => rfl
  | cons chunk chunks ih => rw [writeAll, ih, List.forM_eq_forM, List.forM_cons]

def remember (chunk : Bytes) : EStateM Empty (List Bytes) Unit := fun kept =>
  .ok () (kept ++ [chunk])

theorem Handed.eq_of_remember {chunks kept : List Bytes} {result : EStateM.Result Empty (List Bytes) Unit}
    (h : Handed remember chunks kept result) : result = .ok () (kept ++ chunks) := by
  induction h with
  | done kept => rw [List.append_nil]
  | taken first _ ih =>
    cases first
    rw [ih, List.append_assoc, List.singleton_append]
  | refused first => cases first

/-! ### The sinks that take every chunk -/

theorem writeAll_collecting (chunks kept : List Bytes) :
    writeAll chunks (.collecting kept) = .ok () (.collecting (chunks.reverse ++ kept)) := by
  induction chunks generalizing kept with
  | nil => rfl
  | cons chunk chunks ih =>
    rw [List.reverse_cons, List.append_assoc, List.singleton_append, ← ih (chunk :: kept)]
    rfl

theorem writeAll_counting (chunks : List Bytes) (total : Nat) :
    writeAll chunks (.counting total) = .ok () (.counting (total + chunks.flatten.length)) := by
  induction chunks generalizing total with
  | nil => rfl
  | cons chunk chunks ih =>
    rw [List.flatten_cons, List.length_append, ← Nat.add_assoc, ← ih (total + chunk.length)]
    rfl

/-! ### The sink that refuses by the number of the call -/

variable {refuses : Nat → Bool} {calls : Nat}

theorem writeAll_callback_of_willing {chunks : List Bytes} (taken : List Bytes)
    (h : ∀ call, call < chunks.length → refuses (calls + call) = false) :
    writeAll chunks (.callback refuses calls taken) =
      .ok () (.callback refuses (calls + chunks.length) (chunks.reverse ++ taken)) := by
  induction chunks generalizing calls taken with
  | nil => rfl
  | cons chunk chunks ih =>
    have hfirst : refuses calls = false := h 0 (Nat.zero_lt_succ _)
    have hlater : ∀ call, call < chunks.length → refuses (calls + 1 + call) = false :=
      fun call hcall => by
        rw [Nat.add_assoc, Nat.add_comm 1 call]
        exact h (call + 1) (Nat.succ_lt_succ hcall)
    have hothers := ih (chunk :: taken) hlater
    rw [List.length_cons, Nat.add_comm chunks.length 1, ← Nat.add_assoc, List.reverse_cons,
      List.append_assoc, List.singleton_append, ← hothers]
    simp only [writeAll, bind, EStateM.bind, write, hfirst, Bool.false_eq_true, if_false]

/-- A callback that refuses a call has taken the chunks of the calls before it. -/
theorem writeAll_callback_of_refused {chunks : List Bytes} {last : Nat} (taken : List Bytes)
    (hlast : last < chunks.length) (hrefuses : refuses (calls + last) = true)
    (h : ∀ call, call < last → refuses (calls + call) = false) :
    writeAll chunks (.callback refuses calls taken) = .error (.refused .sinkRejected)
      (.callback refuses (calls + last + 1) ((chunks.take last).reverse ++ taken)) := by
  induction chunks generalizing calls last taken with
  | nil => exact absurd hlast (Nat.not_lt_zero last)
  | cons chunk chunks ih =>
    cases last with
    | zero =>
      have hfirst : refuses calls = true := hrefuses
      simp only [writeAll, bind, EStateM.bind, write, hfirst, if_true]
      rfl
    | succ last =>
      have hshift : ∀ call, calls + 1 + call = calls + (call + 1) := fun call => by omega
      have hfirst : refuses calls = false := h 0 (Nat.zero_lt_succ last)
      have hlater : ∀ call, call < last → refuses (calls + 1 + call) = false := fun call hcall => by
        rw [hshift]
        exact h (call + 1) (Nat.succ_lt_succ hcall)
      rw [← hshift] at hrefuses
      have hothers := ih (chunk :: taken) (Nat.lt_of_succ_lt_succ hlast) hrefuses hlater
      rw [hshift] at hothers
      rw [List.take_succ_cons, List.reverse_cons, List.append_assoc, List.singleton_append, ← hothers]
      simp only [writeAll, bind, EStateM.bind, write, hfirst, Bool.false_eq_true, if_false]

end EngineConsole.Sink
