import Backstep.Program.Simulator
import Backstep.Proofs.Text.NumeralLaws

namespace Backstep.Program.Simulator

open Text Machine Prompt

variable {p q : String}

theorem natural?_dotted {cs : List Char} (dotted : '.' ∈ cs) : natural? 10 numberMax cs = none := by
  cases read : natural? 10 numberMax cs with
  | none => rfl
  | some n =>
    obtain ⟨-, digits, eq, written⟩ := natural?_eq_some.mp read
    have digit : '.' ∈ digits := by
      obtain rfl | rfl := eq
      · exact dotted
      · simpa using dotted
    exact absurd (written.isSome_digit? '.' digit) (by decide)

def optionNames : List String := ["--help", "-h", "--memory", "--history-limit"]

theorem Options.read_file (file : p ∉ optionNames) (options : Options) (rest : List String) :
    options.read (p :: rest) =
      if p.toList.head? = some '-' ∨ options.path.isSome then .error (.unexpected p)
      else Options.read { options with path := some p } rest := by
  obtain ⟨help, short, memory, limit⟩ :
      p ≠ "--help" ∧ p ≠ "-h" ∧ p ≠ "--memory" ∧ p ≠ "--history-limit" := by
    simpa [optionNames] using file
  simp [Options.read, *]

theorem not_mem_optionNames (dotted : '.' ∈ p.toList) : p ∉ optionNames := by
  have plain : ∀ name ∈ optionNames, '.' ∉ name.toList := by decide
  exact fun mem => plain p mem dotted

theorem not_mem_optionNames_of_cases {argument : String} {rest : List String}
    (help : argument = "--help" → False) (short : argument = "-h" → False)
    (memory : argument = "--memory" → rest = [] → False)
    (limit : argument = "--history-limit" → rest = [] → False)
    (memory' : ∀ value others, argument = "--memory" → rest = value :: others → False)
    (limit' : ∀ value others, argument = "--history-limit" → rest = value :: others → False) :
    argument ∉ optionNames := by
  cases rest <;> simp_all [optionNames]

inductive Exchanged (p q : String) : Except Refusal Options → Except Refusal Options → Prop
  | taken (config : Config) : Exchanged p q (.ok ⟨some p, config⟩) (.ok ⟨some q, config⟩)
  | refused (one other : Refusal) :
      (∀ program, (one.start program).1 = (other.start program).1) →
        Exchanged p q (.error one) (.error other)

theorem Exchanged.same (refusal : Refusal) : Exchanged p q (.error refusal) (.error refusal) :=
  .refused _ _ fun _ => rfl

theorem Exchanged.unexpected : Exchanged p q (.error (.unexpected p)) (.error (.unexpected q)) :=
  .refused _ _ fun _ => rfl

theorem Options.read_exchange_behind {options : Options} (path : options.path = some p)
    (behind : List String) :
    Exchanged p q (options.read behind) (Options.read { options with path := some q } behind) := by
  fun_induction Options.read options behind
  case case1 options =>
    obtain ⟨path', config⟩ := options
    cases path
    exact .taken config
  case case6 value rest number read ih | case8 value rest number read ih =>
    rw [Options.read, read]
    exact ih path
  case case7 value rest none | case9 value rest none =>
    rw [Options.read, none]
    exact .same _
  case case10 help short memory limit memory' limit' refused =>
    have file := not_mem_optionNames_of_cases help short memory limit memory' limit'
    rw [Options.read_file file, if_pos (.inr rfl)]
    exact .same _
  case case11 => simp_all
  all_goals exact .same _

theorem Options.read_exchange (dotted : '.' ∈ p.toList) (dotted' : '.' ∈ q.toList)
    (first : p.toList.head? = q.toList.head?) (options : Options) (before behind : List String) :
    Exchanged p q (options.read (before ++ p :: behind))
      (options.read (before ++ q :: behind)) := by
  fun_induction Options.read options before
  case case1 options =>
    rw [List.nil_append, List.nil_append, Options.read_file (not_mem_optionNames dotted),
      Options.read_file (not_mem_optionNames dotted'), ← first]
    split
    case isTrue => exact .unexpected
    case isFalse => exact read_exchange_behind rfl behind
  case case2 | case3 => exact .same _
  case case4 | case5 =>
    -- The file stands where a number should.
    simp only [List.singleton_append, Options.read, natural?_dotted dotted, natural?_dotted dotted']
    exact .same _
  case case6 value rest number read ih | case8 value rest number read ih =>
    simp only [List.cons_append, Options.read, read]
    exact ih
  case case7 value rest none | case9 value rest none =>
    simp only [List.cons_append, Options.read, none]
    exact .same _
  case case10 help short memory limit memory' limit' refused =>
    have file := not_mem_optionNames_of_cases help short memory limit memory' limit'
    rw [List.cons_append, List.cons_append, Options.read_file file, Options.read_file file,
      if_pos refused, if_pos refused]
    exact .same _
  case case11 help short memory limit memory' limit' accepted ih =>
    have file := not_mem_optionNames_of_cases help short memory limit memory' limit'
    rw [List.cons_append, List.cons_append, Options.read_file file, Options.read_file file,
      if_neg accepted, if_neg accepted]
    exact ih

end Backstep.Program.Simulator
