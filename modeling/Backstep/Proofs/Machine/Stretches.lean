import Backstep.Proofs.Machine.InstructionTable
import Backstep.Proofs.Machine.RunLaws

namespace Backstep.Machine

open Isa

theorem Memory.read_of_found {memory : Memory} {a : Nat} {w : Word}
    (found : memory.words[a]? = some w) : memory.read a = .ok w := by
  simp [read, found]

namespace State

variable {s t u raw : State} {m n : Nat} {i : Instruction} {flow : Flow}

/-- So many instructions lead from one state to the other, and none of them is `halt`. -/
inductive Goes : State → Nat → State → Prop
  | refl {s : State} : Goes s 0 s
  | next {s t u : State} {n : Nat} : s.advance = .ok (t, false) → Goes t n u → Goes s (n + 1) u

theorem Goes.trans (first : Goes s m t) (second : Goes t n u) : Goes s (m + n) u := by
  induction first with
  | refl => rwa [Nat.zero_add]
  | next advance _ ih =>
    rw [Nat.add_right_comm]
    exact .next advance (ih second)

section Storage

variable {ra rb : Nat} {disp : Int} {w : Word} (base : Word)
  (points : s.registers.get rb = .ok base)
include points

theorem execute_lw {registers : Registers} (read : s.memory.read (base.toNat + disp) = .ok w)
    (set : s.registers.set ra w = .ok registers) :
    s.execute (.lw ra rb disp) = .ok ({ s with registers }, .next) := by
  simp [execute, setRegister, points, read, set]

theorem execute_sw {memory : Memory} (holds : s.registers.get ra = .ok w)
    (write : s.memory.write (base.toNat + disp) w = .ok memory) :
    s.execute (.sw ra rb disp) = .ok ({ s with memory }, .next) := by
  simp [execute, points, holds, write]

end Storage

theorem Fetches.advance (fetches : s.Fetches i) (executes : s.execute i = .ok (raw, flow))
    (lands : 0 ≤ s.target flow ∧ s.target flow ≤ s.memory.capacity) :
    s.advance = .ok ({ raw with pc := (s.target flow).toNat }, flow == .halt) :=
  advance_eq_ok.mpr ⟨i, raw, flow, fetches.fetch, executes, lands, rfl, rfl⟩

end State

namespace Processor

variable {cpu : Processor} {t final : State} {n : Nat}

theorem run_of_goes (goes : cpu.state.Goes n t) (live : cpu.status ≠ .halted)
    (free : cpu.breakpoint = none) :
    (∀ m ≤ n, (cpu.run m).1 = none) ∧ ∃ later : Processor, later.state = t ∧
      later.status ≠ .halted ∧ later.breakpoint = none ∧ ∀ k, cpu.run (n + k) = later.run k := by
  generalize start : cpu.state = s at goes
  induction goes generalizing cpu with
  | refl =>
    refine ⟨?_, cpu, start, live, free, fun k => by rw [Nat.zero_add]⟩
    intro m none
    rw [Nat.le_zero.mp none, run, runWhile_zero live]
  | @next s t u n advance _ ih =>
    have passes : cpu.Passes := .inr (by simp [free])
    rw [← start] at advance
    have first (k : Nat) : cpu.run (k + 1) = (cpu.stepped t false).run k := by
      rw [run_of_passes live passes, stepThen_next live advance]
    have going : (cpu.stepped t false).status ≠ .halted := by simp [stepped]
    obtain ⟨short, later, state, live', free', rest⟩ := ih going free rfl
    refine ⟨?_, later, state, live', free', ?_⟩
    · intro m le
      cases m with
      | zero => rw [run, runWhile_zero live]
      | succ m =>
        rw [first]
        exact short m (Nat.le_of_succ_le_succ le)
    · intro k
      rw [Nat.add_right_comm, first, rest]

theorem run_of_goes_halt (goes : cpu.state.Goes n t) (halt : t.advance = .ok (final, true))
    (live : cpu.status ≠ .halted) (free : cpu.breakpoint = none) :
    (∀ m ≤ n, (cpu.run m).1 = none) ∧ ∃ after : Processor, after.state = final ∧
      ∀ m, n < m → cpu.run m = (some (.ok .halted), after) := by
  obtain ⟨short, later, rfl, live', free', rest⟩ := run_of_goes goes live free
  refine ⟨short, later.stepped final true, rfl, ?_⟩
  intro m lt
  obtain ⟨k, rfl⟩ := Nat.exists_eq_add_of_lt lt
  have passes : later.Passes := .inr (by simp [free'])
  rw [Nat.add_assoc, rest, run_of_passes live' passes, stepThen_halt live' halt]

end Processor

end Backstep.Machine
