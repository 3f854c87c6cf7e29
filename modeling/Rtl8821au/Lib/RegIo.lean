import Mathlib.Data.Nat.Init

/-!
# Programs that access the registers of a device

What a read returns is up to the device: the n-th read returns the n-th entry of a stream. The
writes are logged in their order. A program ends with a result or with a fault.

* `Emits.bind`, `emits_read`, `emits_write`, `emits_forLoop`: what a program writes, for every
  device.
* `returns_bind`, `returns_forLoop`: what a program that ends without a fault has done.
-/

namespace RegIo

/-- The number of reads so far and the writes, the first one first. -/
structure Io (ω : Type) where
  pos : ℕ
  log : List ω

/-- A program that writes `ω` and may end with a fault `ε`. -/
abbrev Prog (ω ε : Type) := StateT (Io ω) (Except ε)

variable {ω ε α β : Type}

/-- The device has been left alone. -/
def Io.start : Io ω := ⟨0, []⟩

def read (reads : ℕ → α) : Prog ω ε α := fun io => .ok (reads io.pos, { io with pos := io.pos + 1 })

def write (w : ω) : Prog ω ε Unit := fun io => .ok ((), { io with log := io.log ++ [w] })

/-- A step that does not access the device. -/
def check (x : Except ε α) : Prog ω ε α := fun io => x.map fun a => (a, io)

/-- `for (i = 0; i < n; i++) step(i)`. -/
def forLoop (step : ℕ → Prog ω ε Unit) : ℕ → Prog ω ε Unit
  | 0 => pure ()
  | n + 1 => do
    forLoop step n
    step n

theorem bind_run (x : Prog ω ε α) (f : α → Prog ω ε β) (io : Io ω) :
    (x >>= f) io = (x io).bind fun r => f r.1 r.2 := rfl

/-! ## What is written -/

/-- The program ends without a fault, and what it returns and writes meets `Q`. -/
def Emits (x : Prog ω ε α) (Q : α → List ω → Prop) : Prop :=
  ∀ io, ∃ a io' ws, x io = .ok (a, io') ∧ io'.log = io.log ++ ws ∧ Q a ws

section emits

variable {x : Prog ω ε α} {f : α → Prog ω ε β} {P : α → List ω → Prop} {Q : β → List ω → Prop}

theorem Emits.weaken {P' : α → List ω → Prop} (h : Emits x P) (hP : ∀ a ws, P a ws → P' a ws) :
    Emits x P' := by
  intro io
  obtain ⟨a, io', ws, hx, hlog, hp⟩ := h io
  exact ⟨a, io', ws, hx, hlog, hP a ws hp⟩

theorem Emits.bind (hx : Emits x P)
    (hf : ∀ a ws, P a ws → Emits (f a) fun b ws' => Q b (ws ++ ws')) : Emits (x >>= f) Q := by
  intro io
  obtain ⟨a, io₁, ws₁, hx, hlog₁, hp⟩ := hx io
  obtain ⟨b, io₂, ws₂, hf, hlog₂, hq⟩ := hf a ws₁ hp io₁
  refine ⟨b, io₂, ws₁ ++ ws₂, ?_, ?_, hq⟩
  · rw [bind_run, hx]
    exact hf
  · rw [hlog₂, hlog₁, List.append_assoc]

theorem emits_pure {a : α} (h : P a []) : Emits (pure a : Prog ω ε α) P := fun io =>
  ⟨a, io, [], rfl, (List.append_nil _).symm, h⟩

theorem emits_read {reads : ℕ → α} (h : ∀ a, P a []) : Emits (read reads : Prog ω ε α) P :=
  fun io => ⟨reads io.pos, _, [], rfl, (List.append_nil _).symm, h _⟩

theorem emits_write {w : ω} {Q : Unit → List ω → Prop} (h : Q () [w]) :
    Emits (write w : Prog ω ε Unit) Q := fun _ => ⟨(), _, [w], rfl, rfl, h⟩

theorem emits_check {e : Except ε α} {a : α} (he : e = .ok a) (h : P a []) :
    Emits (check e : Prog ω ε α) P := fun io => by
  refine ⟨a, io, [], ?_, (List.append_nil _).symm, h⟩
  rw [check, he]
  rfl

/-- A loop writes one after the other what its rounds write. -/
theorem emits_forLoop {step : ℕ → Prog ω ε Unit} {Q : ℕ → List ω → Prop} (h0 : Q 0 []) {n : ℕ}
    (hstep : ∀ i < n, ∀ ws, Q i ws → Emits (step i) fun _ ws' => Q (i + 1) (ws ++ ws')) :
    Emits (forLoop step n) fun _ => Q n := by
  induction n with
  | zero => exact emits_pure h0
  | succ n ih =>
    refine Emits.bind (ih fun i hi => hstep i (Nat.lt_succ_of_lt hi)) fun _ ws hq => ?_
    exact hstep n (Nat.lt_succ_self n) ws hq

end emits

/-! ## What has been done before a result -/

/-- From some state on the program ends with this result. -/
def Returns (x : Prog ω ε α) (a : α) : Prop := ∃ io io', x io = .ok (a, io')

section returns

variable {x : Prog ω ε α} {f : α → Prog ω ε β} {a : α} {b : β}

theorem returns_bind (h : Returns (x >>= f) b) : ∃ a, Returns x a ∧ Returns (f a) b := by
  obtain ⟨io, io', hr⟩ := h
  rw [bind_run] at hr
  cases hx : x io with
  | error e =>
    rw [hx] at hr
    cases hr
  | ok q =>
    rw [hx] at hr
    exact ⟨q.1, ⟨io, q.2, hx⟩, q.2, io', hr⟩

theorem returns_pure {a' : α} (h : Returns (pure a : Prog ω ε α) a') : a' = a := by
  obtain ⟨io, io', hr⟩ := h
  exact (Prod.mk.inj (Except.ok.inj hr)).1.symm

theorem returns_forLoop {step : ℕ → Prog ω ε Unit} {n : ℕ} {u : Unit}
    (h : Returns (forLoop step n) u) : ∀ i < n, Returns (step i) () := by
  induction n with
  | zero => exact fun i hi => absurd hi (Nat.not_lt_zero i)
  | succ n ih =>
    obtain ⟨_, hloop, hlast⟩ := returns_bind h
    intro i hi
    rcases Nat.lt_succ_iff_lt_or_eq.mp hi with hlt | rfl
    · exact ih hloop i hlt
    · exact hlast

theorem returns_check {e : Except ε α} (h : Returns (check e : Prog ω ε α) a) : e = .ok a := by
  obtain ⟨io, io', hr⟩ := h
  cases e with
  | error e => cases hr
  | ok a' => exact congrArg Except.ok (Prod.mk.inj (Except.ok.inj hr)).1

end returns

end RegIo
