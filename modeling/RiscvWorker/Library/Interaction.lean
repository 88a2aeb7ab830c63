/-! # Programs that call a service

  A program makes calls, one after the other, goes on with the answers, and
  ends with a value or an exception. What a call does is not part of it: a
  *handler* executes calls on a state, a *service* says what may be asked
  for and what may come back.

  `wp` is the weakest precondition of a program over a service that is free
  to choose among its answers. The module has the rules for sequences and
  for loops, and the transfer of a precondition to every handler that
  implements the service.
-/

namespace Interaction

/-- A program over `Call`, answered with `Answer`. An exception of a call
    ends the program. -/
inductive Program (Call Answer Error α : Type) : Type where
  | ret (a : α)
  | raise (e : Error)
  | call (c : Call) (next : Answer → Program Call Answer Error α)

variable {Call Answer Error α β : Type}

namespace Program

def bind (p : Program Call Answer Error α) (f : α → Program Call Answer Error β) :
    Program Call Answer Error β :=
  match p with
  | .ret a => f a
  | .raise e => .raise e
  | .call c next => .call c fun v => (next v).bind f

instance instMonad : Monad (Program Call Answer Error) where
  pure := .ret
  bind := .bind

/-- A single call. -/
def perform (c : Call) : Program Call Answer Error Answer := .call c .ret

/-- `for x in xs: body` -/
def each (body : β → Program Call Answer Error Unit) : List β → Program Call Answer Error Unit
  | [] => .ret ()
  | x :: xs => (body x).bind fun _ => each body xs

/-- `for x in xs: body`, where the body tells whether it breaks. -/
def each_until (body : β → Program Call Answer Error Bool) :
    List β → Program Call Answer Error Unit
  | [] => .ret ()
  | x :: xs => (body x).bind fun stop => if stop then .ret () else each_until body xs

end Program

/-! ### Handlers and services -/

/-- The execution of a call; a call may have no result. -/
abbrev Handler (Call Answer Error S : Type) : Type :=
  Call → S → Option (Except Error Answer × S)

/-- The execution of a program. -/
def Program.run {S : Type} (handler : Handler Call Answer Error S) :
    Program Call Answer Error α → S → Option (Except Error α × S)
  | .ret a, s => some (.ok a, s)
  | .raise e, s => some (.error e, s)
  | .call c next, s =>
    match handler c s with
    | none => none
    | some (.error e, s') => some (.error e, s')
    | some (.ok v, s') => (next v).run handler s'

/-- The calls that a service permits in a state, and what may come of them. -/
structure Service (Call Answer Error W : Type) where
  permits : Call → W → Prop
  serves : Call → W → Except Error Answer → W → Prop

/-- The handler does for every permitted call what the service says. -/
def Implements {S W : Type} (handler : Handler Call Answer Error S)
    (service : Service Call Answer Error W) (R : S → W → Prop) : Prop :=
  ∀ c s w, R s w → service.permits c w →
    ∃ r s' w', handler c s = some (r, s') ∧ service.serves c w r w' ∧ R s' w'

/-! ### Preconditions -/

section preconditions
variable {W : Type} (service : Service Call Answer Error W)

/-- The program ends, whatever the service answers: with a value in `Q`, or
    with an exception in `E`. -/
def wp (p : Program Call Answer Error α) (Q : α → W → Prop) (E : Error → W → Prop) (w : W) :
    Prop :=
  match p with
  | .ret a => Q a w
  | .raise e => E e w
  | .call c next => service.permits c w ∧
      ∀ r w', service.serves c w r w' →
        match r with
        | .ok v => wp (next v) Q E w'
        | .error e => E e w'

variable {service} {Q Q' : α → W → Prop} {E E' : Error → W → Prop} {w : W}

theorem wp_mono {p : Program Call Answer Error α} (hQ : ∀ a w, Q a w → Q' a w)
    (hE : ∀ e w, E e w → E' e w) (h : wp service p Q E w) : wp service p Q' E' w := by
  induction p generalizing w with
  | ret a => exact hQ a w h
  | raise e => exact hE e w h
  | call c next ih =>
    refine ⟨h.1, ?_⟩
    intro r w' hserves
    have hnext := h.2 r w' hserves
    cases r with
    | ok v => exact ih v hnext
    | error e => exact hE e w' hnext

theorem wp_bind (p : Program Call Answer Error α) (f : α → Program Call Answer Error β)
    (Q : β → W → Prop) :
    wp service (p >>= f) Q E w ↔ wp service p (fun a => wp service (f a) Q E) E w := by
  show wp service (p.bind f) Q E w ↔ _
  induction p generalizing w with
  | ret a => exact Iff.rfl
  | raise e => exact Iff.rfl
  | call c next ih =>
    refine and_congr_right fun _ => forall_congr' fun r => forall_congr' fun w' =>
      imp_congr_right fun _ => ?_
    cases r with
    | ok v => exact ih v
    | error e => exact Iff.rfl

/-- A sequence, backwards. -/
theorem wp_seq {p : Program Call Answer Error α} {f : α → Program Call Answer Error β}
    {Q : β → W → Prop} (h : wp service p (fun a => wp service (f a) Q E) E w) :
    wp service (p >>= f) Q E w :=
  (wp_bind p f Q).mpr h

/-- A call that is answered in one way. -/
theorem wp_perform_of_unique {c : Call} {Q : Answer → W → Prop} {v : Answer} {u : W}
    (hpermits : service.permits c w)
    (honly : ∀ r w', service.serves c w r w' → r = .ok v ∧ w' = u) (hQ : Q v u) :
    wp service (Program.perform c) Q E w := by
  refine ⟨hpermits, ?_⟩
  intro r w' hserves
  obtain ⟨rfl, rfl⟩ := honly r w' hserves
  exact hQ

/-- A loop, by an invariant over the number of its rounds. -/
theorem wp_each {body : β → Program Call Answer Error Unit} {xs : List β} {I : Nat → W → Prop}
    (hround : ∀ k (hk : k < xs.length) w, I k w →
      wp service (body xs[k]) (fun _ w => I (k + 1) w) E w)
    (h : I 0 w) : wp service (Program.each body xs) (fun _ w => I xs.length w) E w := by
  induction xs generalizing I w with
  | nil => exact h
  | cons x xs ih =>
    apply (wp_bind _ _ _).mpr
    refine wp_mono (fun _ w hw => ?_) (fun _ _ he => he) (hround 0 (Nat.succ_pos _) w h)
    exact ih (I := fun k => I (k + 1))
      (fun k hk w hk' => hround (k + 1) (Nat.succ_lt_succ hk) w hk') hw

/-- A loop that may break. -/
theorem wp_each_until {body : β → Program Call Answer Error Bool} {xs : List β}
    {I : Nat → W → Prop} {Q : W → Prop}
    (hround : ∀ k (hk : k < xs.length) w, I k w →
      wp service (body xs[k]) (fun stop w => if stop then Q w else I (k + 1) w) E w)
    (hend : ∀ w, I xs.length w → Q w) (h : I 0 w) :
    wp service (Program.each_until body xs) (fun _ w => Q w) E w := by
  induction xs generalizing I w with
  | nil => exact hend w h
  | cons x xs ih =>
    apply (wp_bind _ _ _).mpr
    refine wp_mono (fun stop w hw => ?_) (fun _ _ he => he) (hround 0 (Nat.succ_pos _) w h)
    cases stop with
    | true => exact hw
    | false =>
      exact ih (I := fun k => I (k + 1))
        (fun k hk w hk' => hround (k + 1) (Nat.succ_lt_succ hk) w hk') hend hw

/-! ### Outcomes -/

/-- `r` and `w'` may come of the program in `w`. -/
def Program.Outcome (service : Service Call Answer Error W) :
    Program Call Answer Error α → W → Except Error α → W → Prop
  | .ret a, w, r, w' => r = .ok a ∧ w' = w
  | .raise e, w, r, w' => r = .error e ∧ w' = w
  | .call c next, w, r, w' => ∃ answer w₁, service.serves c w answer w₁ ∧
      match answer with
      | .ok v => (next v).Outcome service w₁ r w'
      | .error e => r = .error e ∧ w' = w₁

theorem Program.Outcome.call_ok {c : Call} {next : Answer → Program Call Answer Error α}
    {v : Answer} {w₁ w' : W} {r : Except Error α} (hserves : service.serves c w (.ok v) w₁)
    (h : (next v).Outcome service w₁ r w') : (Program.call c next).Outcome service w r w' := by
  rw [Outcome]
  exact ⟨.ok v, w₁, hserves, h⟩

theorem Program.Outcome.call_error {c : Call} {next : Answer → Program Call Answer Error α}
    {e : Error} {w₁ : W} (hserves : service.serves c w (.error e) w₁) :
    (Program.call c next).Outcome service w (.error e) w₁ := by
  rw [Outcome]
  exact ⟨.error e, w₁, hserves, rfl, rfl⟩

/-- The program asks for nothing that is not permitted, whatever the answers. -/
def Program.Safe (service : Service Call Answer Error W) (p : Program Call Answer Error α)
    (w : W) : Prop :=
  wp service p (fun _ _ => True) (fun _ _ => True) w

/-- A safe program ends with one of its outcomes. -/
theorem wp_outcome {p : Program Call Answer Error α} (h : p.Safe service w) :
    wp service p (fun a w' => p.Outcome service w (.ok a) w')
      (fun e w' => p.Outcome service w (.error e) w') w := by
  induction p generalizing w with
  | ret a => exact ⟨rfl, rfl⟩
  | raise e => exact ⟨rfl, rfl⟩
  | call c next ih =>
    refine ⟨h.1, ?_⟩
    intro answer w₁ hserves
    have hnext := h.2 answer w₁ hserves
    cases answer with
    | error e => exact .call_error hserves
    | ok v =>
      exact wp_mono (fun _ _ ho => .call_ok hserves ho) (fun _ _ ho => .call_ok hserves ho)
        (ih v hnext)

/-! ### Implementations -/

/-- What holds over the service holds of every implementation. -/
theorem Implements.run_of_wp {S : Type} {handler : Handler Call Answer Error S}
    {R : S → W → Prop} (himpl : Implements handler service R) {p : Program Call Answer Error α}
    {s : S} (hR : R s w) (h : wp service p Q E w) :
    ∃ r s' w', p.run handler s = some (r, s') ∧ R s' w' ∧
      match r with
      | .ok a => Q a w'
      | .error e => E e w' := by
  induction p generalizing s w with
  | ret a => exact ⟨_, _, _, rfl, hR, h⟩
  | raise e => exact ⟨_, _, _, rfl, hR, h⟩
  | call c next ih =>
    obtain ⟨r, s', w', hexec, hserves, hR'⟩ := himpl c s w hR h.1
    have hnext := h.2 r w' hserves
    cases r with
    | error e =>
      refine ⟨.error e, s', w', ?_, hR', hnext⟩
      rw [Program.run, hexec]
    | ok v =>
      obtain ⟨r, s'', w'', hrun, hR'', hr⟩ := ih v hR' hnext
      refine ⟨r, s'', w'', ?_, hR'', hr⟩
      rw [Program.run, hexec]
      exact hrun

end preconditions

/- From here on loops are taken apart by their rules only. -/
attribute [irreducible] Program.each Program.each_until

end Interaction
