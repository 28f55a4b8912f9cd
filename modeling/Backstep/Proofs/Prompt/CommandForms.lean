import Backstep.Prompt.Command
import Backstep.Proofs.ExceptLaws
import Backstep.Proofs.Text.NumeralLaws
import Backstep.Proofs.Text.SplitLaws

namespace Backstep.Prompt

open Text

def Verb.names : Verb → List String
  | run => ["run", "r"]
  | step => ["step", "s"]
  | resume => ["continue", "c"]
  | back => ["back", "b"]
  | registers => ["register", "registers", "reg"]
  | reset => ["reset"]
  | memory => ["memory", "mem", "m"]
  | breakpoint => ["break"]
  | list => ["list", "l"]
  | print => ["print", "p"]
  | exit => ["exit", "quit", "q"]
  | help => ["help", "h", "?"]

def Verb.most : Verb → Nat
  | memory => 2
  | step | back | breakpoint | list | print => 1
  | run | resume | registers | reset | exit | help => 0

def Verb.alone? : Verb → Option Command
  | run => some .run
  | step => some (.step 1)
  | resume => some .resume
  | back => some (.back 1)
  | registers => some .registers
  | reset => some .reset
  | list => some (.list none)
  | exit => some .exit
  | help => some .help
  | memory | breakpoint | print => none

def Verb.counted? : Verb → Nat → Option Command
  | step, n => some (.step n)
  | back, n => some (.back n)
  | _, _ => none

def Verb.addressed? : Verb → Nat → Option Command
  | memory, a => some (.memory a 8)
  | breakpoint, a => some (.setBreak a)
  | list, a => some (.list (some a))
  | _, _ => none

def Calls (v : Verb) (word : List Char) : Prop :=
  ∃ name ∈ v.names, word.map Char.toLower = name.toList

inductive Count (signs : List (List Char)) : List Char → Nat → Prop
  | mk {sign digits : List Char} {n : Nat} : sign ∈ signs → Decimal digits n → 0 < n →
      n ≤ numberMax → Count signs (sign ++ digits) n

/-- One of the signs and a decimal number, or `0x`, a sign and a hexadecimal number. -/
inductive Address (signs : List (List Char)) : List Char → Nat → Prop
  | decimal {sign digits : List Char} {n : Nat} : sign ∈ signs → Decimal digits n →
      n ≤ numberMax → Address signs (sign ++ digits) n
  | hexadecimal {mark : Char} {sign digits : List Char} {n : Nat} : mark = 'x' ∨ mark = 'X' →
      sign ∈ signs → Hexadecimal digits n → n ≤ numberMax →
      Address signs ('0' :: mark :: (sign ++ digits)) n

/-- An optional dollar sign, `r` any number of times, a sign and a number of one byte. -/
inductive Register (signs : List (List Char)) : List Char → Nat → Prop
  | mk {dollar marks sign digits : List Char} {n : Nat} : dollar = [] ∨ dollar = ['$'] →
      (∀ c ∈ marks, c = 'r' ∨ c = 'R') → sign ∈ signs → Decimal digits n → n ≤ 255 →
      Register signs (dollar ++ (marks ++ (sign ++ digits))) n

/-- The words of each command, with numbers that have one of the signs before their digits. -/
inductive Form (signs : List (List Char)) : List (List Char) → Command → Prop
  | alone {v : Verb} {name : List Char} {c : Command} : Calls v name → v.alone? = some c →
      Form signs [name] c
  | counted {v : Verb} {name word : List Char} {n : Nat} {c : Command} : Calls v name →
      v.counted? n = some c → Count signs word n → Form signs [name, word] c
  | addressed {v : Verb} {name word : List Char} {a : Nat} {c : Command} : Calls v name →
      v.addressed? a = some c → Address signs word a → Form signs [name, word] c
  | memory {name word word' : List Char} {a n : Nat} : Calls .memory name →
      Address signs word a → Count signs word' n → Form signs [name, word, word'] (.memory a n)
  | clearBreak {name : List Char} : Calls .breakpoint name →
      Form signs [name, "clear".toList] .clearBreak
  | print {name word : List Char} {r : Nat} : Calls .print name → Register signs word r →
      Form signs [name, word] (.print r)

def signs : List (List Char) := [[], ['+']]

variable {v : Verb} {name word line : List Char} {arguments tokens : List (List Char)} {n : Nat}
  {c : Command}

theorem Verb.ofName?_eq_some {name : String} : ofName? name = some v ↔ name ∈ v.names := by
  constructor
  · intro h
    rw [ofName?.eq_def] at h
    split at h <;> cases h <;> decide
  · intro mem
    have each : ∀ v : Verb, ∀ name ∈ v.names, ofName? name = some v := by
      intro v
      cases v <;> decide
    exact each v name mem

theorem calls_iff :
    Verb.ofName? (String.ofList (word.map Char.toLower)) = some v ↔ Calls v word := by
  rw [Verb.ofName?_eq_some, Calls]
  constructor
  · intro mem
    exact ⟨_, mem, String.toList_ofList.symm⟩
  · rintro ⟨name, mem, same⟩
    rwa [same, String.ofList_toList]

theorem natural?_iff {base bound : Nat} : natural? base bound word = some n ↔
    n ≤ bound ∧ ∃ sign ∈ signs, ∃ digits, word = sign ++ digits ∧ Writes base digits n := by
  rw [natural?_eq_some]
  refine and_congr_right fun _ => ?_
  constructor
  · rintro ⟨digits, rfl | rfl, written⟩
    · exact ⟨[], by simp [signs], word, rfl, written⟩
    · exact ⟨['+'], by simp [signs], digits, rfl, written⟩
  · rintro ⟨sign, mem, digits, rfl, written⟩
    obtain rfl | rfl : sign = [] ∨ sign = ['+'] := by simpa [signs] using mem
    · exact ⟨digits, .inl rfl, written⟩
    · exact ⟨digits, .inr rfl, written⟩

theorem count_eq_ok : count word = .ok n ↔ Count signs word n := by
  have read : count word = .ok n ↔ (natural? 10 numberMax word).filter (0 < ·) = some n := by
    rw [count]
    cases (natural? 10 numberMax word).filter (0 < ·) <;> simp
  rw [read, Option.filter_eq_some_iff, decide_eq_true_iff, natural?_iff]
  constructor
  · rintro ⟨⟨small, sign, mem, digits, rfl, written⟩, positive⟩
    exact .mk mem (writes_ten.mp written) positive small
  · rintro ⟨mem, decimal, positive, small⟩
    exact ⟨⟨small, _, mem, _, rfl, writes_ten.mpr decimal⟩, positive⟩

theorem address_marked {hex : List Char} (marked : afterHexMark? word = some hex) :
    address word = .ok n ↔ natural? 16 numberMax hex = some n := by
  rw [address, marked]
  dsimp only
  cases natural? 16 numberMax hex <;> simp

theorem address_unmarked (unmarked : afterHexMark? word = none) :
    address word = .ok n ↔ natural? 10 numberMax word = some n := by
  rw [address, unmarked]
  dsimp only
  cases natural? 10 numberMax word <;> simp

theorem address_eq_ok : address word = .ok n ↔ Address signs word n := by
  constructor
  · intro h
    cases marked : afterHexMark? word with
    | some hex =>
      rw [address_marked marked] at h
      obtain ⟨mark, letter, rfl⟩ := afterHexMark?_eq_some.mp marked
      obtain ⟨small, sign, mem, digits, rfl, written⟩ := natural?_iff.mp h
      exact .hexadecimal letter mem (writes_sixteen.mp written) small
    | none =>
      rw [address_unmarked marked] at h
      obtain ⟨small, sign, mem, digits, rfl, written⟩ := natural?_iff.mp h
      exact .decimal mem (writes_ten.mp written) small
  · intro h
    cases h with
    | @hexadecimal mark sign digits n letter mem written small =>
      rw [address_marked (afterHexMark?_eq_some.mpr ⟨mark, letter, rfl⟩)]
      exact natural?_iff.mpr ⟨small, sign, mem, digits, rfl, writes_sixteen.mpr written⟩
    | @decimal sign digits n mem written small =>
      have written := writes_ten.mpr written
      have unmarked : afterHexMark? (sign ++ digits) = none := by
        obtain rfl | rfl : sign = [] ∨ sign = ['+'] := by simpa [signs] using mem
        · exact written.afterHexMark?_eq_none
        · rfl
      rw [address_unmarked unmarked]
      exact natural?_iff.mpr ⟨small, sign, mem, digits, rfl, written⟩

theorem dropWhile_marks {marks sign digits : List Char} (all : ∀ c ∈ marks, c = 'r' ∨ c = 'R')
    (mem : sign ∈ signs) (written : Writes 10 digits n) :
    (marks ++ (sign ++ digits)).dropWhile (fun c => c == 'r' || c == 'R') = sign ++ digits := by
  have inside : ∀ c ∈ marks, (c == 'r' || c == 'R') = true := by simpa using all
  rw [List.dropWhile_append_of_pos inside]
  refine dropWhile_eq_self fun c first => ?_
  obtain rfl | rfl : sign = [] ∨ sign = ['+'] := by simpa [signs] using mem
  · have digit := isDigit_of_digit? (written.isSome_digit? c (List.mem_of_mem_head? first))
    have lower : c ≠ 'r' := by rintro rfl; cases digit
    have upper : c ≠ 'R' := by rintro rfl; cases digit
    simp [lower, upper]
  · cases first
    rfl

def Bare (word : List Char) (n : Nat) : Prop :=
  ∃ marks sign digits, word = marks ++ (sign ++ digits) ∧ (∀ c ∈ marks, c = 'r' ∨ c = 'R') ∧
    sign ∈ signs ∧ Decimal digits n ∧ n ≤ 255

theorem bare_iff :
    natural? 10 255 (word.dropWhile fun c => c == 'r' || c == 'R') = some n ↔ Bare word n := by
  constructor
  · intro h
    obtain ⟨small, sign, mem, digits, rest, written⟩ := natural?_iff.mp h
    refine ⟨word.takeWhile fun c => c == 'r' || c == 'R', sign, digits, ?_, fun c taken => ?_, mem,
      writes_ten.mp written, small⟩
    · rw [← rest, List.takeWhile_append_dropWhile]
    · simpa using List.mem_takeWhile_imp taken
  · rintro ⟨marks, sign, digits, rfl, all, mem, decimal, small⟩
    have written := writes_ten.mpr decimal
    rw [dropWhile_marks all mem written]
    exact natural?_iff.mpr ⟨small, sign, mem, digits, rfl, written⟩

theorem Bare.not_dollar : ¬ Bare ('$' :: word) n := by
  intro bare
  have none : natural? 10 255 (('$' :: word).dropWhile fun c => c == 'r' || c == 'R') = none := rfl
  cases none.symm.trans (bare_iff.mpr bare)

theorem register_iff :
    Register signs word n ↔ Bare word n ∨ ∃ rest, word = '$' :: rest ∧ Bare rest n := by
  constructor
  · rintro @⟨dollar, marks, sign, digits, n, before, all, mem, decimal, small⟩
    have bare : Bare (marks ++ (sign ++ digits)) n := ⟨_, _, _, rfl, all, mem, decimal, small⟩
    obtain rfl | rfl := before
    · exact .inl bare
    · exact .inr ⟨_, rfl, bare⟩
  · rintro (⟨marks, sign, digits, rfl, all, mem, decimal, small⟩ |
      ⟨_, rfl, marks, sign, digits, rfl, all, mem, decimal, small⟩)
    · exact .mk (.inl rfl) all mem decimal small
    · exact .mk (.inr rfl) all mem decimal small

theorem register_dollar : register ('$' :: word) = .ok n ↔ Bare word n := by
  rw [← bare_iff, register]
  cases natural? 10 255 (word.dropWhile fun c => c == 'r' || c == 'R') <;> simp

theorem register_plain (plain : ∀ rest, word ≠ '$' :: rest) :
    register word = .ok n ↔ Bare word n := by
  rw [← bare_iff, register]
  · cases natural? 10 255 (word.dropWhile fun c => c == 'r' || c == 'R') <;> simp
  · exact plain

theorem register_eq_ok : register word = .ok n ↔ Register signs word n := by
  rw [register_iff]
  by_cases dollar : ∃ rest, word = '$' :: rest
  · obtain ⟨rest, rfl⟩ := dollar
    simp [register_dollar, Bare.not_dollar]
  · have plain := not_exists.mp dollar
    simp [register_plain plain, plain]

theorem form_of_ofWords
    (h : Command.ofWords (String.ofList (name.map Char.toLower)) arguments = .ok c) :
    Form signs (name :: arguments) c := by
  rw [Command.ofWords.eq_def] at h
  split at h
  case h_1 called | h_2 called | h_4 called | h_5 called | h_7 called | h_8 called | h_12 called
      | h_15 called | h_16 called =>
    cases h
    exact .alone (calls_iff.mp called) rfl
  case h_3 word called | h_6 word called =>
    obtain ⟨n, number, h⟩ := bind_eq_ok.mp h
    cases h
    exact .counted (calls_iff.mp called) rfl (count_eq_ok.mp number)
  case h_9 word called | h_13 word called =>
    obtain ⟨a, number, h⟩ := bind_eq_ok.mp h
    cases h
    exact .addressed (calls_iff.mp called) rfl (address_eq_ok.mp number)
  case h_10 word word' called =>
    obtain ⟨a, number, h⟩ := bind_eq_ok.mp h
    obtain ⟨n, rows, h⟩ := bind_eq_ok.mp h
    cases h
    exact .memory (calls_iff.mp called) (address_eq_ok.mp number) (count_eq_ok.mp rows)
  case h_11 word called =>
    split at h
    case isTrue clear =>
      obtain rfl := beq_iff_eq.mp clear
      cases h
      exact .clearBreak (calls_iff.mp called)
    case isFalse =>
      obtain ⟨a, number, h⟩ := bind_eq_ok.mp h
      cases h
      exact .addressed (calls_iff.mp called) rfl (address_eq_ok.mp number)
  case h_14 word called =>
    obtain ⟨r, number, h⟩ := bind_eq_ok.mp h
    cases h
    exact .print (calls_iff.mp called) (register_eq_ok.mp number)
  case h_17 => cases h

theorem not_address_clear : ¬ Address signs "clear".toList n := by
  intro written
  have none : address "clear".toList = .error (.invalidAddress "clear") := rfl
  cases none.symm.trans (address_eq_ok.mpr written)

theorem ofWords_of_form (h : Form signs (name :: arguments) c) :
    Command.ofWords (String.ofList (name.map Char.toLower)) arguments = .ok c := by
  cases h with
  | @alone v _ _ called stands =>
    rw [Command.ofWords.eq_def, calls_iff.mpr called]
    cases v <;> cases stands <;> rfl
  | @counted v _ word n _ called stands number =>
    have read := count_eq_ok.mpr number
    rw [Command.ofWords.eq_def, calls_iff.mpr called]
    cases v <;> cases stands <;> exact bind_eq_ok.mpr ⟨n, read, rfl⟩
  | @addressed v _ word a _ called stands number =>
    have read := address_eq_ok.mpr number
    have other : word ≠ "clear".toList := by
      rintro rfl
      exact not_address_clear number
    rw [Command.ofWords.eq_def, calls_iff.mpr called]
    cases v with
    | memory | list =>
      cases stands
      exact bind_eq_ok.mpr ⟨a, read, rfl⟩
    | breakpoint =>
      cases stands
      dsimp only
      rw [if_neg (by simpa using other)]
      exact bind_eq_ok.mpr ⟨a, read, rfl⟩
    | _ => cases stands
  | memory called number rows =>
    rw [Command.ofWords.eq_def, calls_iff.mpr called]
    dsimp only
    rw [address_eq_ok.mpr number, ok_bind, count_eq_ok.mpr rows, ok_bind, pure_eq_ok]
  | clearBreak called =>
    rw [Command.ofWords.eq_def, calls_iff.mpr called]
    rfl
  | print called number =>
    rw [Command.ofWords.eq_def, calls_iff.mpr called]
    dsimp only
    rw [register_eq_ok.mpr number, ok_bind, pure_eq_ok]

theorem ofWords_of_most_lt (called : Calls v name) (more : v.most < arguments.length) :
    Command.ofWords (String.ofList (name.map Char.toLower)) arguments =
      .error (.unknown (String.ofList (name.map Char.toLower))) := by
  rw [Command.ofWords.eq_def, calls_iff.mpr called]
  split <;> simp_all [Verb.most]

section Signs

variable {ss ss' : List (List Char)}

def Allows (ss ss' : List (List Char)) (word : List Char) : Prop :=
  ∀ sign ∈ ss, sign ⊆ word → sign ∈ ss'

theorem Count.allow (h : Count ss word n) (allows : Allows ss ss' word) : Count ss' word n := by
  obtain ⟨mem, decimal, positive, small⟩ := h
  exact .mk (allows _ mem (by simp)) decimal positive small

theorem Address.allow (h : Address ss word n) (allows : Allows ss ss' word) :
    Address ss' word n := by
  cases h with
  | decimal mem decimal small => exact .decimal (allows _ mem (by simp)) decimal small
  | hexadecimal mark mem hexadecimal small =>
    refine .hexadecimal mark (allows _ mem fun c inside => ?_) hexadecimal small
    simp [inside]

theorem Register.allow (h : Register ss word n) (allows : Allows ss ss' word) :
    Register ss' word n := by
  obtain ⟨dollar, marks, mem, decimal, small⟩ := h
  refine .mk dollar marks (allows _ mem fun c inside => ?_) decimal small
  simp [inside]

theorem Form.allow (h : Form ss tokens c) (allows : ∀ word ∈ tokens, Allows ss ss' word) :
    Form ss' tokens c := by
  cases h with
  | alone called stands => exact .alone called stands
  | counted called stands number =>
    exact .counted called stands (number.allow (allows _ (by simp)))
  | addressed called stands number =>
    exact .addressed called stands (number.allow (allows _ (by simp)))
  | memory called number rows =>
    exact .memory called (number.allow (allows _ (by simp))) (rows.allow (allows _ (by simp)))
  | clearBreak called => exact .clearBreak called
  | print called number => exact .print called (number.allow (allows _ (by simp)))

theorem Form.of_unsigned (h : Form [[]] tokens c) : Form signs tokens c := by
  refine h.allow fun word mem sign allowed inside => ?_
  obtain rfl := List.mem_singleton.mp allowed
  exact List.mem_cons_self

theorem form_signs_iff (plain : ∀ word ∈ tokens, '+' ∉ word) :
    Form signs tokens c ↔ Form [[]] tokens c := by
  refine ⟨fun h => ?_, Form.of_unsigned⟩
  refine h.allow fun word mem sign allowed inside => ?_
  obtain rfl | rfl : sign = [] ∨ sign = ['+'] := by simpa [signs] using allowed
  · exact List.mem_singleton_self _
  · exact absurd (inside (List.mem_singleton_self _)) (plain word mem)

theorem Address.not_mem_plus (h : Address [[]] word n) : '+' ∉ word := by
  cases h with
  | decimal mem decimal =>
    obtain rfl := List.mem_singleton.mp mem
    exact fun plus => absurd ((writes_ten.mpr decimal).isSome_digit? _ plus) (by decide)
  | hexadecimal mark mem hexadecimal =>
    obtain rfl := List.mem_singleton.mp mem
    have plain : '+' ∉ _ := fun plus =>
      absurd ((writes_sixteen.mpr hexadecimal).isSome_digit? _ plus) (by decide)
    obtain rfl | rfl := mark <;> simpa using plain

end Signs

theorem parse_eq_none : Command.parse line = .ok none ↔ Text.words line = [] := by
  rw [Command.parse]
  cases Text.words line with
  | nil => simp
  | cons name arguments => simp [map_eq_ok]

theorem parse_eq_some :
    Command.parse line = .ok (some c) ↔ Form signs ((Text.words line).take 3) c := by
  rw [Command.parse]
  cases Text.words line with
  | nil =>
    simp only [Except.ok.injEq, reduceCtorEq, List.take_nil, false_iff]
    intro form
    cases form
  | cons name arguments =>
    rw [List.take_succ_cons, map_eq_ok]
    simp only [Option.some.injEq, exists_eq_right]
    exact ⟨form_of_ofWords, ofWords_of_form⟩

theorem parse_eq_unknown (stands : Text.words line = name :: arguments) (called : Calls v name)
    (other : v ≠ .memory) (more : v.most < arguments.length) :
    Command.parse line = .error (.unknown (String.ofList (name.map Char.toLower))) := by
  have single : v.most ≤ 1 := by
    cases v with
    | memory => exact absurd rfl other
    | _ => decide
  have taken : v.most < (arguments.take 2).length := by
    rw [List.length_take]
    omega
  rw [Command.parse, stands]
  dsimp only
  rw [ofWords_of_most_lt called taken]
  rfl

/-- A line without words is no command. Any other is one just if its first three words have the form
of it, in which numbers may have a plus sign; so words without one that are three at most are a
command just in the form that it has. More words than a command takes are refused, but for those
behind the two numbers of `memory`. -/
theorem parse_by_form (line : List Char) : ∃ tokens,
    (∀ ts, Fields isBlank line ts ↔ ts = tokens) ∧
    (Command.parse line = .ok none ↔ tokens = []) ∧
    (∀ c, Command.parse line = .ok (some c) ↔ Form signs (tokens.take 3) c) ∧
    (tokens.length ≤ 3 → (∀ word ∈ tokens, '+' ∉ word) →
      ∀ c, Command.parse line = .ok (some c) ↔ Form [[]] tokens c) ∧
    ∀ v name arguments, tokens = name :: arguments → Calls v name → v ≠ .memory →
      v.most < arguments.length →
        Command.parse line = .error (.unknown (String.ofList (name.map Char.toLower))) := by
  refine ⟨Text.words line, fun ts => fields_iff, parse_eq_none, fun c => parse_eq_some, ?_, ?_⟩
  · intro short plain c
    rw [parse_eq_some, List.take_of_length_le short, form_signs_iff plain]
  · intro v name arguments stands called other more
    exact parse_eq_unknown stands called other more

theorem parse_by_form_of_memory :
    Form [[]] ["MeM".toList, "0X1f".toList, "3".toList] (.memory 31 3) ∧
      Command.parse "Step 5 now".toList = .error (.unknown "step") := by
  obtain ⟨tokens, unique, -, -, documented, -⟩ := parse_by_form " MeM\t0X1f 3 ".toList
  obtain ⟨tokens', unique', -, -, -, refused⟩ := parse_by_form "Step 5 now".toList
  obtain rfl := (unique _).mp (fields_iff.mpr rfl)
  obtain rfl := (unique' _).mp (fields_iff.mpr rfl)
  refine ⟨(documented (by decide) (by decide) _).mp rfl, ?_⟩
  exact refused .step "Step".toList _ rfl ⟨"step", by decide, rfl⟩ (by decide) (by decide)

theorem misshapen_lines_accepted :
    (Command.parse "memory 0 4 junk".toList = .ok (some (.memory 0 4)) ∧
      ∀ c, ¬ Form [[]] (Text.words "memory 0 4 junk".toList) c) ∧
    Command.parse "break 0x+5".toList = .ok (some (.setBreak 5)) ∧
      ∀ c, ¬ Form [[]] (Text.words "break 0x+5".toList) c := by
  have long : Text.words "memory 0 4 junk".toList =
      ["memory".toList, "0".toList, "4".toList, "junk".toList] := rfl
  have short : Text.words "break 0x+5".toList = ["break".toList, "0x+5".toList] := rfl
  refine ⟨⟨rfl, fun c form => ?_⟩, rfl, fun c form => ?_⟩
  · rw [long] at form
    cases form
  · rw [short] at form
    obtain rfl : c = .setBreak 5 := by
      have read : Command.parse "break 0x+5".toList = .ok (some c) :=
        parse_eq_some.mpr form.of_unsigned
      cases read
      rfl
    cases form with
    | @counted v _ _ _ _ _ stands => cases v <;> cases stands
    | addressed _ _ number => exact number.not_mem_plus (by decide)

end Backstep.Prompt
