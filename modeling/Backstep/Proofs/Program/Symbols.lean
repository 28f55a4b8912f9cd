import Backstep.Proofs.Asm.References
import Backstep.Proofs.Machine.InstructionTable

namespace Backstep.Machine

open Isa Asm Text

namespace State

variable {s after : State} {i : Instruction} {r : Nat} {value : Int}

theorem accesses_of_none (h : s.accessed? i = none) : s.Accesses i := by
  intro a accessed
  simp [h] at accessed

theorem lands_next (h : s.destination i = s.pc + 1) (inside : s.pc < s.memory.capacity) :
    s.Lands i := by
  rw [Lands, h]
  omega

/-- Only the register has changed, and it holds the value modulo 2¹⁶. -/
structure Loads (s : State) (r : Nat) (value : Int) (after : State) : Prop where
  register : (after.reg r : Int) = value % 65536
  others : ∀ q, q ≠ r → after.reg q = s.reg q
  memory : after.memory = s.memory

theorem Changed.memory_eq (h : s.Changed i after) (stored : s.stored? i = none) :
    after.memory = s.memory := by
  have words : after.memory.words = s.memory.words := by
    apply Array.ext_getElem?
    intro a
    simpa [stored] using h.memory a
  exact congrArg Memory.mk words

theorem Changed.reg_eq (h : s.Changed i after) (written : s.written? i = none) (r : Nat) :
    after.reg r = s.reg r := by
  have kept := h.registers r
  rw [written] at kept
  exact Int.ofNat_inj.mp kept

theorem Changed.loads (h : s.Changed i after) (written : s.written? i = some (r, value))
    (stored : s.stored? i = none) (nonzero : r ≠ 0) : s.Loads r value after where
  register := by simpa [written, nonzero] using h.registers r
  others := by
    intro q other
    have kept := h.registers q
    simp only [written, other, false_and, if_false] at kept
    exact Int.ofNat_inj.mp kept
  memory := h.memory_eq stored

end State

namespace Processor

variable {cpu : Processor} {words : List Word} {start count : Nat} {i : Instruction}

theorem step_effect (live : cpu.status ≠ .halted) (fetches : cpu.state.Fetches i)
    (accesses : cpu.state.Accesses i) (lands : cpu.state.Lands i) (goes : i ≠ .halt) :
    ∃ after, cpu.step = (.ok .stepped, after) ∧ after.status ≠ .halted ∧
      cpu.state.Effect i after.state := by
  obtain ⟨after, advances, effect⟩ := State.advance_effect fetches accesses lands
  rw [decide_eq_false goes] at advances
  exact ⟨_, step_ok live advances, by simp [stepped], effect⟩

theorem step_branch {cond : Condition} {ra rb a : Nat} (live : cpu.status ≠ .halted)
    (fetches : cpu.state.Fetches (.branch cond ra rb (a - cpu.pc - 1)))
    (inside : cpu.pc < cpu.state.memory.capacity) (fits : a ≤ cpu.state.memory.capacity) :
    ∃ after, cpu.step = (.ok .stepped, after) ∧ after.status ≠ .halted ∧
      (after.pc = if cpu.state.Taken cond ra rb then a else cpu.pc + 1) ∧
      (∀ q, after.state.reg q = cpu.state.reg q) ∧ after.state.memory = cpu.state.memory := by
  rw [pc] at fetches inside
  have target : cpu.state.destination (.branch cond ra rb (a - cpu.state.pc - 1)) =
      (if cpu.state.Taken cond ra rb then a else cpu.state.pc + 1 : Nat) := by
    rw [State.destination]
    split
    · omega
    · rfl
  have lands : cpu.state.Lands (.branch cond ra rb (a - cpu.state.pc - 1)) := by
    rw [State.Lands, target]
    split <;> omega
  obtain ⟨after, step, live, effect⟩ := step_effect live fetches
    (State.accesses_of_none rfl) lands (by simp)
  exact ⟨after, step, live, Int.ofNat.inj (effect.pc.trans target), effect.reg_eq rfl,
    effect.memory_eq rfl⟩

theorem step_lea {r : Nat} {offset : Int} (live : cpu.status ≠ .halted)
    (fetches : cpu.state.Fetches (.lea r offset)) (inside : cpu.pc < cpu.state.memory.capacity)
    (nonzero : r ≠ 0) :
    ∃ after, cpu.step = (.ok .stepped, after) ∧ after.status ≠ .halted ∧ after.pc = cpu.pc + 1 ∧
      cpu.state.Loads r (cpu.pc + 1 + offset) after.state := by
  obtain ⟨after, step, live, effect⟩ := step_effect live fetches
    (State.accesses_of_none rfl) (State.lands_next rfl inside) (by simp)
  exact ⟨after, step, live, Int.ofNat.inj effect.pc, effect.loads rfl rfl nonzero⟩

theorem step_lw {ra rb : Nat} {disp : Int} {w : Word} {a : Nat} (live : cpu.status ≠ .halted)
    (fetches : cpu.state.Fetches (.lw ra rb disp)) (inside : cpu.pc < cpu.state.memory.capacity)
    (address : cpu.state.reg rb + disp = a) (found : cpu.state.memory.words[a]? = some w)
    (nonzero : ra ≠ 0) :
    ∃ after, cpu.step = (.ok .stepped, after) ∧ after.status ≠ .halted ∧ after.pc = cpu.pc + 1 ∧
      cpu.state.Loads ra w.toNat after.state := by
  have holds : a < cpu.state.memory.capacity := (Array.getElem?_eq_some_iff.mp found).1
  have accesses : cpu.state.Accesses (.lw ra rb disp) := by
    rintro _ ⟨⟩
    rw [Memory.Holds, address]
    omega
  obtain ⟨after, step, live, effect⟩ := step_effect live fetches accesses
    (State.lands_next rfl inside) (by simp)
  have written : cpu.state.written? (.lw ra rb disp) = some (ra, (w.toNat : Int)) := by
    simp [State.written?, address, found]
  exact ⟨after, step, live, Int.ofNat.inj effect.pc, effect.loads written rfl nonzero⟩

/-- A processor that calls lead to, in front of words of a program that are still in its memory. -/
structure AtCode (words : List Word) (start count : Nat) (cpu : Processor) : Prop where
  reached : ∃ config calls, Reached config calls cpu
  fits : words.length ≤ cpu.state.memory.capacity
  live : cpu.status ≠ .halted
  pc : cpu.pc = start
  kept : ∀ k < count, cpu.state.memory.words[start + k]? = words[start + k]?

namespace AtCode

theorem capacity_le (h : AtCode words start count cpu) : cpu.state.memory.capacity ≤ 65536 := by
  obtain ⟨config, calls, reached⟩ := h.reached
  rw [reached.wellFormed.state.memory]
  exact Nat.min_le_right _ _

theorem lt_capacity {index : Nat} (h : AtCode words start count cpu) (codes : Codes words index i) :
    index < cpu.state.memory.capacity := by
  obtain ⟨w, written, -⟩ := codes
  exact Nat.lt_of_lt_of_le (List.getElem?_eq_some_iff.mp written).1 h.fits

theorem fetches {k : Nat} {s : State} (h : AtCode words start count cpu) (inside : k < count)
    (codes : Codes words (start + k) i) (memory : s.memory = cpu.state.memory)
    (pc : s.pc = start + k) : s.Fetches i := by
  obtain ⟨w, written, decoded⟩ := codes
  exact ⟨w, by rw [memory, pc, h.kept k inside, written], decoded⟩

end AtCode

theorem loads_pool {r : Nat} {pool : Word} (code : AtCode words start 4 cpu)
    (skip : Codes words start (.branch .equal 0 0 1)) (held : words[start + 1]? = some pool)
    (point : Codes words (start + 2) (.lea r (-2))) (load : Codes words (start + 3) (.lw r r 0))
    (nonzero : r ≠ 0) :
    ∃ one two three, cpu.step = (.ok .stepped, one) ∧ one.pc = start + 2 ∧
      one.step = (.ok .stepped, two) ∧ two.pc = start + 3 ∧
      two.step = (.ok .stepped, three) ∧ three.pc = start + 4 ∧
      cpu.state.Loads r pool.toNat three.state := by
  have capacity := code.capacity_le
  have inside := code.lt_capacity load
  -- The branch is always taken, and its target is the word behind the pool.
  have distance : (1 : Int) = (start + 2 : Nat) - cpu.pc - 1 := by
    rw [code.pc]
    omega
  have fetches := code.fetches (k := 0) (by decide) skip rfl code.pc
  rw [distance] at fetches
  obtain ⟨one, skips, live, pc, registers, memory⟩ := step_branch code.live fetches
    (by rw [code.pc]; omega) (by omega)
  have taken : cpu.state.Taken .equal 0 0 := rfl
  rw [if_pos taken] at pc
  obtain ⟨two, points, live', pc', pointed⟩ := step_lea live
    (code.fetches (k := 2) (by decide) point memory pc) (by rw [pc, memory]; omega) nonzero
  rw [pc] at pc' pointed
  -- Addresses stay below 2¹⁶, so the register holds that of the pool and not one modulo 2¹⁶.
  have address : (two.state.reg r : Int) + 0 = (start + 1 : Nat) := by
    rw [pointed.register]
    omega
  have memory' : two.state.memory = cpu.state.memory := pointed.memory.trans memory
  have found : two.state.memory.words[start + 1]? = some pool := by
    rw [memory', code.kept 1 (by decide), held]
  obtain ⟨three, loads, -, pc'', loaded⟩ := step_lw live'
    (code.fetches (k := 3) (by decide) load memory' pc') (by rw [pc', memory']; omega) address found
    nonzero
  rw [pc'] at pc''
  refine ⟨one, two, three, skips, pc, points, pc', loads, pc'', loaded.register, ?_,
    loaded.memory.trans memory'⟩
  intro q other
  rw [loaded.others q other, pointed.others q other, registers]

/-- Symbolic control flow lands on the label: a branch that is taken goes to the one address of the
label and any other goes on, and `lea` gives the register that address. -/
theorem label_lands {source : String} (h : assemble source = .ok words) {index : Nat}
    {name : Token} (label : name.isLabelName = true) :
    (∀ cond x y,
      (statements source)[index]? = some ⟨(Opcode.branch cond).mnemonic, [x, y, name]⟩ →
      ∃ a ra rb, (∀ b, LabelAt (lines source.toList) name b ↔ b = a) ∧
        x.Register ra ∧ y.Register rb ∧
        ∀ cpu, AtCode words index 1 cpu → ∃ after, cpu.step = (.ok .stepped, after) ∧
          after.pc = if cpu.state.Taken cond ra rb then a else index + 1) ∧
    ∀ x r, (statements source)[index]? = some ⟨Opcode.lea.mnemonic, [x, name]⟩ →
      x.Register r → r ≠ 0 →
      ∃ a : Nat, (∀ b, LabelAt (lines source.toList) name b ↔ b = a) ∧
        ∀ cpu, AtCode words index 1 cpu → ∃ after, cpu.step = (.ok .stepped, after) ∧
          cpu.state.Loads r a after.state := by
  constructor
  · intro cond x y at_index
    obtain ⟨ra, rb, offset, codes, hx, hy, last⟩ := codes_branch h at_index
    obtain ⟨a, there, rfl⟩ := last.of_label label
    refine ⟨a, ra, rb, there.iff_eq h, hx, hy, ?_⟩
    intro cpu code
    have fetches := code.fetches (k := 0) (by decide) codes rfl code.pc
    have inside := code.lt_capacity codes
    rw [← code.pc] at fetches inside ⊢
    obtain ⟨after, step, -, pc, -⟩ := step_branch code.live fetches inside
      (Nat.le_trans (there.le_length h) code.fits)
    exact ⟨after, step, pc⟩
  · intro x r at_index register nonzero
    obtain ⟨r', offset, codes, hx, last⟩ := codes_lea h at_index
    obtain rfl := hx.unique register
    obtain ⟨a, there, rfl⟩ := last.of_label label
    refine ⟨a, there.iff_eq h, ?_⟩
    intro cpu code
    have fetches := code.fetches (k := 0) (by decide) codes rfl code.pc
    have inside := code.lt_capacity codes
    rw [← code.pc] at fetches inside
    obtain ⟨after, step, -, -, loads⟩ := step_lea code.live fetches inside nonzero
    have value : (cpu.pc + 1 + (a - cpu.pc - 1) : Int) = a := by omega
    exact ⟨after, step, value ▸ loads⟩

theorem label_lands_of_end : ∃ words cpu,
    assemble "lea r1, end\nbne r1, r0, end\nend:" = .ok words ∧
      AtCode words 0 1 cpu ∧ cpu.step.2.state.reg 1 = 2 ∧
      AtCode words 1 1 cpu.step.2 ∧ cpu.step.2.step.2.pc = 2 ∧ cpu.capacity = 2 := by
  have assembled : assemble "lea r1, end\nbne r1, r0, end\nend:" = .ok [0xC201, 0x9200] := rfl
  have loaded : (new ⟨2, none⟩).perform 0 (.load [0xC201, 0x9200]) = some (.ok .done, _) := rfl
  have before := Reached.new.call loaded
  have stepped : ((new ⟨2, none⟩).load [0xC201, 0x9200]).2.perform 0 .step =
      some (.ok (.signal .stepped), _) := rfl
  have code : AtCode [0xC201, 0x9200] 0 1 ((new ⟨2, none⟩).load [0xC201, 0x9200]).2 :=
    ⟨⟨_, _, before⟩, by decide, by decide, rfl, by decide⟩
  have code' : AtCode [0xC201, 0x9200] 1 1 ((new ⟨2, none⟩).load [0xC201, 0x9200]).2.step.2 :=
    ⟨⟨_, _, before.call stepped⟩, by decide, by decide, rfl, by decide⟩
  have there : LabelAt (lines "lea r1, end\nbne r1, r0, end\nend:".toList) "end".toList 2 :=
    ⟨2, "end:".toList, rfl, rfl, rfl⟩
  have label : Token.isLabelName "end".toList = true := rfl
  have one : Token.Register "r1".toList 1 := .of_register? rfl
  have zero : Token.Register "r0".toList 0 := .of_register? rfl
  have at_lea : (statements "lea r1, end\nbne r1, r0, end\nend:")[0]? =
      some ⟨"lea", ["r1".toList, "end".toList]⟩ := rfl
  have at_bne : (statements "lea r1, end\nbne r1, r0, end\nend:")[1]? =
      some ⟨"bne", ["r1".toList, "r0".toList, "end".toList]⟩ := rfl
  obtain ⟨a, only, lea⟩ := (label_lands assembled label).2 _ _ at_lea one (by decide)
  obtain ⟨b, ra, rb, only', hx, hy, branch⟩ :=
    (label_lands assembled label).1 .notEqual _ _ at_bne
  obtain rfl := (only 2).mp there
  obtain rfl := (only' 2).mp there
  obtain rfl := hx.unique one
  obtain rfl := hy.unique zero
  obtain ⟨after, step, loads⟩ := lea _ code
  obtain ⟨after', step', pc⟩ := branch _ code'
  refine ⟨_, _, assembled, code, ?_, code', ?_, rfl⟩
  · rw [step]
    exact Int.ofNat_inj.mp loads.register
  · rw [step', pc]
    rfl

/-- The words of `la` give the register what the symbol denotes, in three steps that never reach the
word that holds it, and change nothing else. -/
theorem loadAddress_loads {source : String} (h : assemble source = .ok words) {j r : Nat}
    {row : List Char} {reg symbol : Token} (at_j : (lines source.toList)[j]? = some row)
    (stands : lineOperation? row = some ⟨Operation.loadAddress, [reg, symbol]⟩)
    (register : reg.Register r) (nonzero : r ≠ 0) :
    ∃ value, (∀ v, Denotes (lines source.toList) symbol v ↔ v = value) ∧
      ∀ cpu, AtCode words (wordsBefore (lines source.toList) j) 4 cpu → ∃ one two three,
        cpu.step = (.ok .stepped, one) ∧ one.pc = wordsBefore (lines source.toList) j + 2 ∧
        one.step = (.ok .stepped, two) ∧ two.pc = wordsBefore (lines source.toList) j + 3 ∧
        two.step = (.ok .stepped, three) ∧ three.pc = wordsBefore (lines source.toList) j + 4 ∧
        cpu.state.Loads r value three.state := by
  obtain ⟨skip, ⟨pool, value, held, denotes, eq⟩, point, load⟩ :=
    codes_loadAddress h at_j stands register
  refine ⟨value, denotes.iff_eq h, ?_⟩
  intro cpu code
  obtain ⟨one, two, three, skips, pc, points, pc', loads, pc'', loaded⟩ :=
    loads_pool code skip held point load nonzero
  refine ⟨one, two, three, skips, pc, points, pc', loads, pc'', ?_, loaded.others, loaded.memory⟩
  rw [loaded.register]
  omega

theorem loadAddress_loads_of_halt : ∃ words cpu one two three,
    assemble "noop\nla r7, -8192" = .ok words ∧ Codes words 2 .halt ∧ AtCode words 1 4 cpu ∧
      cpu.capacity = 5 ∧ cpu.step = (.ok .stepped, one) ∧ one.step = (.ok .stepped, two) ∧
      two.step = (.ok .stepped, three) ∧ three.pc = 5 ∧ three.state.reg 7 = 57344 := by
  have assembled : assemble "noop\nla r7, -8192" =
      .ok [0x0000, 0x8001, 0xE000, 0xCE1E, 0x6FC0] := rfl
  have loaded : (new ⟨5, none⟩).perform 0 (.load [0x0000, 0x8001, 0xE000, 0xCE1E, 0x6FC0]) =
      some (.ok .done, _) := rfl
  have stepped : ((new ⟨5, none⟩).load [0x0000, 0x8001, 0xE000, 0xCE1E, 0x6FC0]).2.perform 0 .step =
      some (.ok (.signal .stepped), _) := rfl
  have code : AtCode [0x0000, 0x8001, 0xE000, 0xCE1E, 0x6FC0] 1 4
      ((new ⟨5, none⟩).load [0x0000, 0x8001, 0xE000, 0xCE1E, 0x6FC0]).2.step.2 :=
    ⟨⟨_, _, (Reached.new.call loaded).call stepped⟩, by decide, by decide, rfl, by decide⟩
  have at_la : (lines "noop\nla r7, -8192".toList)[1]? = some "la r7, -8192".toList := rfl
  have stands : lineOperation? "la r7, -8192".toList =
      some ⟨Operation.loadAddress, ["r7".toList, "-8192".toList]⟩ := rfl
  obtain ⟨value, only, runs⟩ :=
    loadAddress_loads assembled at_la stands (.of_register? rfl) (by decide)
  obtain rfl := (only (-8192)).mp (.numeral (.of_number? rfl))
  obtain ⟨one, two, three, skips, -, points, -, loads, pc, loaded⟩ := runs _ code
  exact ⟨_, _, one, two, three, assembled, ⟨0xE000, rfl, rfl⟩, code, rfl, skips, points, loads, pc,
    Int.ofNat_inj.mp loaded.register⟩

end Processor

end Backstep.Machine
