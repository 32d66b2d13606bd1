import Supervisor.Effect

/-! How operations end. `outcome` is for an operation that is over, `Ends` for one in the middle of
others. Log records are not looked at. -/

namespace Supervisor

variable {ε δ σ α β : Type}

/-- What an operation has done when it is over. -/
structure Outcome (ε σ α : Type) where
  writes : List Write
  result : Except (Stop ε) α
  state : σ

/-- An outcome without a state is its writes and its result. -/
theorem Outcome.eq_mk {o : Outcome ε Unit α} {writes : List Write} {result : Except (Stop ε) α}
    (hWrites : o.writes = writes) (hResult : o.result = result) : o = ⟨writes, result, ()⟩ := by
  rw [← hWrites, ← hResult]

namespace Effect

/-- The outcome of an operation that nothing came before. -/
def outcome (op : Effect ε σ α) (s : σ) : Outcome ε σ α :=
  match op ⟨s, .empty⟩ with
  | .ok a s' => ⟨s'.trace.writes.toList, .ok a, s'.state⟩
  | .error stop s' => ⟨s'.trace.writes.toList, .error stop, s'.state⟩

/-- A result together with what is left behind. -/
def close (r : Except (Stop ε) α) (s : Traced σ) : EStateM.Result (Stop ε) (Traced σ) α :=
  match r with
  | .ok a => .ok a s
  | .error stop => .error stop s

/-- Begun in state `s`, whatever was traced before, the operation makes exactly these writes and
ends with the result `r` in state `s'`. -/
def Ends (op : Effect ε σ α) (s : σ) (writes : List Write) (r : Except (Stop ε) α) (s' : σ) :
    Prop :=
  ∀ trace : Trace, ∃ log,
    op ⟨s, trace⟩ = close r ⟨s', ⟨trace.writes ++ writes.toArray, trace.log ++ log⟩⟩

theorem Ends.outcome_eq {op : Effect ε σ α} {s s' : σ} {writes : List Write}
    {r : Except (Stop ε) α} (h : op.Ends s writes r s') : op.outcome s = ⟨writes, r, s'⟩ := by
  obtain ⟨log, hRun⟩ := h .empty
  rw [outcome, hRun]
  cases r <;> simp [close, Trace.empty]

/-- Begun in a state, the operation panics. -/
def Panics (op : Effect ε σ α) (s : σ) : Prop :=
  ∃ cause, (op.outcome s).result = .error (.panicked cause)

theorem Ends.panics_iff {op : Effect ε σ α} {s s' : σ} {writes : List Write}
    {r : Except (Stop ε) α} (h : op.Ends s writes r s') :
    op.Panics s ↔ ∃ cause, r = .error (.panicked cause) := by
  rw [Panics, h.outcome_eq]

theorem Ends.not_panics {op : Effect ε σ α} {s s' : σ} {writes : List Write} {a : α}
    (h : op.Ends s writes (.ok a) s') : ¬ op.Panics s := by
  rw [h.panics_iff]
  rintro ⟨cause, ⟨⟩⟩

theorem Ends.not_panics_of_refused {op : Effect ε σ α} {s s' : σ} {writes : List Write}
    {error : ε} (h : op.Ends s writes (.error (.refused error)) s') : ¬ op.Panics s := by
  rw [h.panics_iff]
  rintro ⟨cause, ⟨⟩⟩

theorem Ends.pure (a : α) (s : σ) : (Pure.pure a : Effect ε σ α).Ends s [] (.ok a) s := by
  intro trace
  exact ⟨#[], by simp [close]; rfl⟩

/-- What comes second sees the state that the first left, and its writes come after. -/
theorem Ends.bind {op : Effect ε σ α} {f : α → Effect ε σ β} {s s₁ s₂ : σ} {a : α}
    {w₁ w₂ : List Write} {r : Except (Stop ε) β} (h₁ : op.Ends s w₁ (.ok a) s₁)
    (h₂ : (f a).Ends s₁ w₂ r s₂) : (op >>= f).Ends s (w₁ ++ w₂) r s₂ := by
  intro trace
  obtain ⟨log₁, hFirst⟩ := h₁ trace
  obtain ⟨log₂, hSecond⟩ := h₂ ⟨trace.writes ++ w₁.toArray, trace.log ++ log₁⟩
  refine ⟨log₁ ++ log₂, ?_⟩
  show EStateM.bind op f ⟨s, trace⟩ = _
  rw [EStateM.bind, hFirst]
  simpa [close, Array.append_assoc] using hSecond

/-- Nothing comes after an operation that stopped. -/
theorem Ends.bind_stop {op : Effect ε σ α} {f : α → Effect ε σ β} {s s₁ : σ} {stop : Stop ε}
    {writes : List Write} (h : op.Ends s writes (.error stop) s₁) :
    (op >>= f).Ends s writes (.error stop) s₁ := by
  intro trace
  obtain ⟨log, hRun⟩ := h trace
  refine ⟨log, ?_⟩
  show EStateM.bind op f ⟨s, trace⟩ = _
  rw [EStateM.bind, hRun]
  rfl

/-- As `Ends.bind`, for a first part that writes nothing. -/
theorem Ends.andThen {op : Effect ε σ α} {f : α → Effect ε σ β} {s s₁ s₂ : σ} {a : α}
    {writes : List Write} {r : Except (Stop ε) β} (h₁ : op.Ends s [] (.ok a) s₁)
    (h₂ : (f a).Ends s₁ writes r s₂) : (op >>= f).Ends s writes r s₂ :=
  h₁.bind h₂

/-- What comes second writes nothing. -/
theorem Ends.andLast {op : Effect ε σ α} {f : α → Effect ε σ β} {s s₁ s₂ : σ} {a : α}
    {writes : List Write} {r : Except (Stop ε) β} (h₁ : op.Ends s writes (.ok a) s₁)
    (h₂ : (f a).Ends s₁ [] r s₂) : (op >>= f).Ends s writes r s₂ := by
  rw [← List.append_nil writes]
  exact h₁.bind h₂

/-- What comes second is computed from the result and does nothing else. -/
theorem Ends.map {op : Effect ε σ α} {g : α → β} {s s' : σ} {writes : List Write}
    {r : Except (Stop ε) α} (h : op.Ends s writes r s') :
    (op >>= fun a => Pure.pure (g a)).Ends s writes (r.map g) s' := by
  cases r with
  | ok a => exact h.andLast (Ends.pure (g a) s')
  | error stop => exact h.bind_stop

theorem exists_close (result : EStateM.Result (Stop ε) (Traced σ) α) :
    ∃ r s, result = close r s := by
  cases result with
  | ok a s => exact ⟨.ok a, s, rfl⟩
  | error stop s => exact ⟨.error stop, s, rfl⟩

theorem map_injective {g : α → β} (hInjective : ∀ a b, g a = g b → a = b)
    {r₁ r₂ : Except ε α} (hMap : r₁.map g = r₂.map g) : r₁ = r₂ := by
  cases r₁ <;> cases r₂ <;> simp only [Except.map, Except.ok.injEq, Except.error.injEq,
    reduceCtorEq] at hMap ⊢
  · exact hMap
  · exact hInjective _ _ hMap

/-- How an operation ended can be told from what was computed from its result, if that loses
nothing. -/
theorem Ends.of_map {op : Effect ε σ α} {g : α → β} (hInjective : ∀ a b, g a = g b → a = b)
    {s s' : σ} {writes : List Write} {r : Except (Stop ε) β}
    (h : (op >>= fun a => Pure.pure (g a)).Ends s writes r s') :
    ∃ r₀, op.Ends s writes r₀ s' ∧ r = r₀.map g := by
  have hEach {trace : Trace} {r₀ : Except (Stop ε) α} {left : Traced σ}
      (hRun : op ⟨s, trace⟩ = close r₀ left) : r = r₀.map g ∧
        ∃ log, left = ⟨s', ⟨trace.writes ++ writes.toArray, trace.log ++ log⟩⟩ := by
    obtain ⟨log, hWhole⟩ := h trace
    have hBind : EStateM.bind op (fun a => Pure.pure (g a)) ⟨s, trace⟩ = _ := hWhole
    rw [EStateM.bind, hRun] at hBind
    cases r₀ with
    | ok a =>
        cases r with
        | ok b =>
            cases hBind
            exact ⟨rfl, log, rfl⟩
        | error stop => cases hBind
    | error stop =>
        cases r with
        | ok b => cases hBind
        | error stop' =>
            cases hBind
            exact ⟨rfl, log, rfl⟩
  obtain ⟨r₀, left, hFirst⟩ := exists_close (op ⟨s, .empty⟩)
  refine ⟨r₀, fun trace => ?_, (hEach hFirst).1⟩
  obtain ⟨r₁, left₁, hRun⟩ := exists_close (op ⟨s, trace⟩)
  obtain ⟨hResult, log, rfl⟩ := hEach hRun
  rw [map_injective hInjective ((hEach hFirst).1.symm.trans hResult)]
  exact ⟨log, hRun⟩

theorem ends_throw (stop : Stop ε) (s : σ) :
    (throw stop : Effect ε σ α).Ends s [] (.error stop) s := by
  intro trace
  exact ⟨#[], by simp [close]; rfl⟩

theorem ends_refuse (error : ε) (s : σ) :
    (refuse error : Effect ε σ α).Ends s [] (.error (.refused error)) s :=
  ends_throw _ s

theorem ends_panic (cause : Panic) (s : σ) :
    (panic cause : Effect ε σ α).Ends s [] (.error (.panicked cause)) s :=
  ends_throw _ s

theorem ends_lift (r : Except (Stop ε) α) (s : σ) : (lift r).Ends s [] r s := by
  cases r with
  | ok a => exact Ends.pure a s
  | error stop => exact ends_throw stop s

theorem ends_orPanic (r : Except Panic α) (s : σ) :
    (orPanic r : Effect ε σ α).Ends s [] (r.mapError .panicked) s := by
  cases r with
  | ok a => exact Ends.pure a s
  | error cause => exact ends_panic cause s

theorem ends_orFault (r : Except Fault α) (s : σ) :
    (orFault r : Effect ε σ α).Ends s [] (Stop.ofFault r) s := by
  cases r with
  | ok a => exact Ends.pure a s
  | error fault => exact ends_panic (.fault fault) s

theorem ends_state (s : σ) : (state : Effect ε σ σ).Ends s [] (.ok s) s := by
  intro trace
  exact ⟨#[], by simp [close]; rfl⟩

theorem ends_update (change : σ → σ) (s : σ) :
    (update change : Effect ε σ Unit).Ends s [] (.ok ()) (change s) := by
  intro trace
  exact ⟨#[], by simp [close]; rfl⟩

theorem ends_log (level : Log.Level) (message : String) (s : σ) :
    (log level message : Effect ε σ Unit).Ends s [] (.ok ()) s := by
  intro trace
  exact ⟨#[⟨level, message⟩], by simp [close, log]⟩

theorem ends_write (w : Write) (s : σ) :
    (write w : Effect ε σ Unit).Ends s [w] (.ok ()) s := by
  intro trace
  exact ⟨#[], by simp [close, write]⟩

/-- An attempt gives a refusal as a value and leaves the state alone. -/
theorem ends_attempt {op : Effect δ Unit α} {writes : List Write} {r : Except δ α}
    (h : op.Ends () writes (r.mapError .refused) ()) (s : σ) :
    (attempt op : Effect ε σ (Except δ α)).Ends s writes (.ok r) s := by
  intro trace
  obtain ⟨log, hRun⟩ := h trace
  refine ⟨log, ?_⟩
  unfold attempt
  rw [hRun]
  cases r <;> rfl

/-- The result of an operation whose refusal is turned into a value. -/
def caught : Except (Stop δ) α → Except (Stop ε) (Except δ α)
  | .ok a => .ok (.ok a)
  | .error (.refused error) => .ok (.error error)
  | .error (.panicked cause) => .error (.panicked cause)

/-- Catching a refusal gives it as a value and keeps what was done. -/
theorem ends_catchRefusal {op : Effect δ σ α} {s s' : σ} {writes : List Write}
    {r : Except (Stop δ) α} (h : op.Ends s writes r s') :
    (catchRefusal op : Effect ε σ (Except δ α)).Ends s writes (caught r) s' := by
  intro trace
  obtain ⟨log, hRun⟩ := h trace
  refine ⟨log, ?_⟩
  unfold catchRefusal
  rw [hRun]
  match r with
  | .ok a => rfl
  | .error (.refused error) => rfl
  | .error (.panicked cause) => rfl

/-- An operation on a part of the state leaves the rest alone. -/
theorem ends_focus {τ : Type} {get : σ → τ} {set : τ → σ → σ} {op : Effect ε τ α} {s : σ} {t' : τ}
    {writes : List Write} {r : Except (Stop ε) α} (h : op.Ends (get s) writes r t') :
    (focus get set op).Ends s writes r (set t' s) := by
  intro trace
  obtain ⟨log, hRun⟩ := h trace
  refine ⟨log, ?_⟩
  unfold focus
  rw [hRun]
  cases r <;> rfl

section Preserves

variable {τ : Type} {view : σ → τ}

/-- The state that is left at the end. -/
def left (result : EStateM.Result (Stop ε) (Traced σ) α) : σ :=
  match result with
  | .ok _ s => s.state
  | .error _ s => s.state

/-- What `view` shows of the state is the same before and after. -/
def Preserves (view : σ → τ) (op : Effect ε σ α) : Prop :=
  ∀ s, view (left (op s)) = view s.state

theorem Preserves.outcome {op : Effect ε σ α} (h : op.Preserves view) (s : σ) :
    view (op.outcome s).state = view s := by
  have hLeft := h ⟨s, .empty⟩
  unfold Effect.outcome
  cases hRun : op ⟨s, .empty⟩ <;> rwa [hRun] at hLeft

theorem Preserves.bind {op : Effect ε σ α} {f : α → Effect ε σ β} (hFirst : op.Preserves view)
    (hRest : ∀ a, (f a).Preserves view) : (op >>= f).Preserves view := by
  intro s
  have hHere := hFirst s
  show view (left (EStateM.bind op f s)) = _
  rw [EStateM.bind]
  cases hRun : op s with
  | ok a s' =>
      rw [hRun] at hHere
      exact (hRest a s').trans hHere
  | error stop s' =>
      rw [hRun] at hHere
      exact hHere

theorem preserves_pure (a : α) : (Pure.pure a : Effect ε σ α).Preserves view := fun _ => rfl

theorem preserves_throw (stop : Stop ε) : (throw stop : Effect ε σ α).Preserves view := fun _ => rfl

theorem preserves_state : (state : Effect ε σ σ).Preserves view := fun _ => rfl

theorem preserves_log (level : Log.Level) (message : String) :
    (log level message : Effect ε σ Unit).Preserves view := fun _ => rfl

theorem preserves_update {change : σ → σ} (hChange : ∀ s, view (change s) = view s) :
    (update change : Effect ε σ Unit).Preserves view :=
  fun s => hChange s.state

/-- An operation on a part of the state leaves alone what does not depend on that part. -/
theorem preserves_focus {ρ : Type} {get : σ → ρ} {set : ρ → σ → σ} (op : Effect ε ρ α)
    (hSet : ∀ part s, view (set part s) = view s) : (focus get set op).Preserves view := by
  intro s
  unfold focus
  cases op ⟨get s.state, s.trace⟩ <;> exact hSet _ s.state

theorem preserves_attempt (op : Effect δ Unit α) :
    (attempt op : Effect ε σ (Except δ α)).Preserves view := by
  intro s
  unfold attempt
  match op ⟨(), s.trace⟩ with
  | .ok _ _ => rfl
  | .error (.refused _) _ => rfl
  | .error (.panicked _) _ => rfl

theorem Preserves.catchRefusal {op : Effect δ σ α} (h : op.Preserves view) :
    (catchRefusal op : Effect ε σ (Except δ α)).Preserves view := by
  intro s
  have hHere := h s
  unfold Effect.catchRefusal
  cases hRun : op s with
  | ok a s' =>
      rw [hRun] at hHere
      exact hHere
  | error stop s' =>
      rw [hRun] at hHere
      cases stop <;> exact hHere

theorem Preserves.quietly {op : Effect ε σ α} (h : op.Preserves view) :
    (quietly op).Preserves view := by
  intro s
  have hHere := h s
  unfold Effect.quietly
  cases hRun : op s <;> rwa [hRun] at hHere

end Preserves

/-- Begun in state `s`, the operation ends with the result `r` and does nothing at all, not even a
log record. -/
def Reads (op : Effect ε σ α) (s : σ) (r : Except (Stop ε) α) : Prop :=
  ∀ trace, op ⟨s, trace⟩ = close r ⟨s, trace⟩

theorem Reads.ends {op : Effect ε σ α} {s : σ} {r : Except (Stop ε) α} (h : op.Reads s r) :
    op.Ends s [] r s := by
  intro trace
  exact ⟨#[], by simpa using h trace⟩

theorem Reads.andThen {op : Effect ε σ α} {f : α → Effect ε σ β} {s : σ} {a : α}
    {r : Except (Stop ε) β} (h₁ : op.Reads s (.ok a)) (h₂ : (f a).Reads s r) :
    (op >>= f).Reads s r := by
  intro trace
  show EStateM.bind op f ⟨s, trace⟩ = _
  rw [EStateM.bind, h₁ trace]
  exact h₂ trace

/-- Operations that begin with reading the same go on in the same way. -/
theorem Reads.bind_congr {op op' : Effect ε σ α} {s : σ} {r : Except (Stop ε) α}
    (h : op.Reads s r) (h' : op'.Reads s r) (f : α → Effect ε σ β) (trace : Trace) :
    (op >>= f) ⟨s, trace⟩ = (op' >>= f) ⟨s, trace⟩ := by
  show EStateM.bind op f ⟨s, trace⟩ = EStateM.bind op' f ⟨s, trace⟩
  rw [EStateM.bind, EStateM.bind, h trace, h' trace]

theorem reads_pure (a : α) (s : σ) : (Pure.pure a : Effect ε σ α).Reads s (.ok a) := fun _ => rfl

theorem reads_refuse (error : ε) (s : σ) :
    (refuse error : Effect ε σ α).Reads s (.error (.refused error)) := fun _ => rfl

theorem reads_orFault (r : Except Fault α) (s : σ) :
    (orFault r : Effect ε σ α).Reads s (Stop.ofFault r) := by
  intro trace
  cases r <;> rfl

theorem reads_state (s : σ) : (state : Effect ε σ σ).Reads s (.ok s) := fun _ => rfl

/-- The value given, unless there is a failure. -/
def passing (fault? : Option ε) (a : α) : Except ε α :=
  match fault? with
  | none => .ok a
  | some error => .error error

section Fold

variable (fault? : α → Option ε) (writes : α → List Write)

/-- The writes made for the items up to the first that fails, that one included. -/
def emitted : List α → List Write
  | [] => []
  | x :: rest => writes x ++ if (fault? x).isNone then emitted rest else []

theorem mem_emitted {w : Write} {l : List α} (hMem : w ∈ emitted fault? writes l) :
    ∃ x ∈ l, w ∈ writes x := by
  induction l with
  | nil => cases hMem
  | cons x rest ih =>
      rcases List.mem_append.mp hMem with hHere | hLater
      · exact ⟨x, List.mem_cons_self .., hHere⟩
      · cases hFault : fault? x with
        | some error => simp [hFault] at hLater
        | none =>
            obtain ⟨y, hIn, hWrite⟩ := ih (by simpa [hFault] using hLater)
            exact ⟨y, List.mem_cons_of_mem _ hIn, hWrite⟩

theorem length_emitted_le {l : List α} {bound : Nat} (hEach : ∀ x ∈ l, (writes x).length ≤ bound) :
    (emitted fault? writes l).length ≤ l.length * bound := by
  induction l with
  | nil => exact Nat.zero_le _
  | cons x rest ih =>
      have hHere := hEach x (List.mem_cons_self ..)
      have hLater := ih fun y hMem => hEach y (List.mem_cons_of_mem _ hMem)
      rw [emitted, List.length_append, List.length_cons, Nat.succ_mul]
      split
      · omega
      · rw [List.length_nil]
        omega

/-- Where every item passes, all of them write. -/
theorem emitted_eq_flatMap {l : List α} (hPass : l.findSome? fault? = none) :
    emitted fault? writes l = l.flatMap writes := by
  induction l with
  | nil => rfl
  | cons x rest ih =>
      rw [List.findSome?_cons] at hPass
      cases hFault : fault? x with
      | some error => simp [hFault] at hPass
      | none => simp [emitted, hFault, ih (by simpa [hFault] using hPass)]

/-- The writes up to the first item that fails. -/
theorem emitted_of_first {before after : List α} {x : α} {error : ε}
    (hPass : ∀ y ∈ before, fault? y = none) (hFault : fault? x = some error) :
    emitted fault? writes (before ++ x :: after) = before.flatMap writes ++ writes x := by
  induction before with
  | nil => simp [emitted, hFault]
  | cons y before ih =>
      have hHere := hPass y (List.mem_cons_self ..)
      have hLater := ih fun z hMem => hPass z (List.mem_cons_of_mem _ hMem)
      simp [emitted, hHere, hLater]

/-- Where an item that fails writes nothing, only those before the first failure write. -/
theorem emitted_eq_takeWhile (hSilent : ∀ x error, fault? x = some error → writes x = [])
    (l : List α) :
    emitted fault? writes l = (l.takeWhile fun x => (fault? x).isNone).flatMap writes := by
  induction l with
  | nil => rfl
  | cons x rest ih =>
      cases hFault : fault? x with
      | none => simp [emitted, hFault, ih]
      | some error => simp [emitted, hFault, hSilent x error hFault]

/-- The first failure among the items is the failure of the whole. -/
theorem foldlM_ends {f : β → α → Effect ε σ β} {next : β → α → β} {s : σ}
    (hEach : ∀ b x, (f b x).Ends s (writes x)
      ((passing (fault? x) (next b x)).mapError .refused) s) (l : List α) (b : β) :
    (l.foldlM f b).Ends s (emitted fault? writes l)
      ((passing (l.findSome? fault?) (l.foldl next b)).mapError .refused) s := by
  induction l generalizing b with
  | nil => exact Ends.pure b s
  | cons x rest ih =>
      have hHead := hEach b x
      rw [List.foldlM_cons, List.findSome?_cons, emitted]
      cases hFault : fault? x with
      | none =>
          rw [hFault] at hHead
          exact hHead.bind (ih (next b x))
      | some error =>
          rw [hFault] at hHead
          simp only [Option.isNone_some, Bool.false_eq_true, if_false, List.append_nil]
          exact hHead.bind_stop

end Fold

end Effect

end Supervisor
