import Mathlib.Logic.Relation
import Backstep.Proofs.Asm.HeadedLines
import Backstep.Proofs.Asm.InstructionLines
import Backstep.Proofs.Asm.OperandSpellings
import Backstep.Proofs.Asm.Retouching

namespace Backstep.Asm

open Isa Text

structure Separators (gap : List Char) : Prop where
  some : gap ≠ []
  all : ∀ c ∈ gap, isSeparator c = true

structure Piece (token : Token) : Prop where
  some : token ≠ []
  inside : ∀ c ∈ token, isSeparator c = false
  code : '#' ∉ token

structure Behind (before : List Char) : Prop where
  some : before ≠ []
  blank : ∀ c ∈ before.head?, isBlank c = true
  code : '#' ∉ before

structure Opens (before : List Char) : Prop extends Behind before where
  separated : ∀ c ∈ before.getLast?, isSeparator c = true

def Closes (after : List Char) : Prop := ∀ c ∈ after.head?, isSeparator c = true ∨ c = '#'

def ClosesAll (after : List Char) : Prop := ∀ c ∈ stripComment after, isSeparator c = true

inductive OperandsRespelled : List Char → List Char → Prop
  | separators {before gap gap' after : List Char} : Behind before → Separators gap →
      Separators gap' → OperandsRespelled (before ++ gap ++ after) (before ++ gap' ++ after)
  | dollar {before reg after : List Char} {r : Nat} : Opens before → Token.RegisterName reg r →
      Closes after → OperandsRespelled (before ++ reg ++ after) (before ++ '$' :: reg ++ after)
  | baseDollar {before disp reg after : List Char} {r : Nat} : Opens before →
      disp = [] ∨ Piece disp → '(' ∉ disp → Token.RegisterName reg r → Closes after →
      OperandsRespelled (before ++ (disp ++ '(' :: (reg ++ [')'])) ++ after)
        (before ++ (disp ++ '(' :: ('$' :: reg ++ [')'])) ++ after)

/-- The operands `ra`, `base` and `disp`, of which the last two are put together. Zero can be left
out then. -/
inductive Displaced : List Char → List Char → Prop
  | mk {lead gap gap' after : List Char} {ra base disp written : Token} : Behind lead →
      (∀ c ∈ lead, isSeparator c = true) → Piece ra → Separators gap → Piece base → Separators gap' →
      Piece disp → '(' ∉ disp → written = disp ∨ written = [] ∧ disp = ['0'] → ClosesAll after →
      Displaced (lead ++ ra ++ (gap ++ base ++ (gap' ++ disp ++ after)))
        (lead ++ ra ++ (gap ++ (written ++ '(' :: (base ++ [')'])) ++ after))

inductive LineRespelled : List Char → List Char → Prop
  | mnemonic {head name name' rest : List Char} {label : Option Token} : Heading head label →
      Operation.isPlain name = true → name.map Char.toLower = name'.map Char.toLower →
      EndsMnemonic rest → LineRespelled (head ++ name ++ rest) (head ++ name' ++ rest)
  | operands {head name rest rest' : List Char} {label : Option Token} : Heading head label →
      Operation.isPlain name = true → OperandsRespelled rest rest' →
      LineRespelled (head ++ name ++ rest) (head ++ name ++ rest')
  | displaced {head name rest rest' : List Char} {label : Option Token} : Heading head label →
      name.map Char.toLower = "lw".toList ∨ name.map Char.toLower = "sw".toList →
      Displaced rest rest' → LineRespelled (head ++ name ++ rest) (head ++ name ++ rest')

inductive Respelled : List Char → List Char → Prop
  | mk {before row row' after : List Char} : StartsLine before → EndsLine after → '\n' ∉ row →
      '\n' ∉ row' → LineRespelled row row' → Respelled (before ++ row ++ after) (before ++ row' ++ after)

section Operands

variable {before gap after rest rest' : List Char} {token reg disp base : Token} {r : Nat}

theorem Separators.code (h : Separators gap) : '#' ∉ gap :=
  fun mem => absurd (h.all _ mem) (by decide)

theorem piece_of_registerName (named : Token.RegisterName reg r) : Piece reg where
  some := by
    rintro rfl
    cases named
  inside c mem := Operation.isSeparator_of_plain (named.isPlain c mem).1
  code mem := (named.isPlain _ mem).1.2.2.2 rfl

theorem Piece.cons {c : Char} (h : Piece token) (plain : Operation.IsPlain c) : Piece (c :: token) where
  some := by simp
  inside := List.forall_mem_cons.mpr ⟨Operation.isSeparator_of_plain plain, h.inside⟩
  code := by simpa [h.code] using Ne.symm plain.2.2.2

theorem piece_displacement (front : disp = [] ∨ Piece disp) (back : Piece base) :
    Piece (disp ++ '(' :: (base ++ [')'])) where
  some := by simp
  inside := by
    have inside : ∀ c ∈ disp, isSeparator c = false := by
      obtain rfl | piece := front
      · simp
      · exact piece.inside
    rw [List.forall_mem_append, List.forall_mem_cons, List.forall_mem_append,
      List.forall_mem_singleton]
    exact ⟨inside, rfl, back.inside, rfl⟩
  code := by
    have free : '#' ∉ disp := by
      obtain rfl | piece := front
      · simp
      · exact piece.code
    simp [free, back.code]

theorem fields_operand (opens : Opens before) (piece : Piece token) (closes : Closes after) :
    fields isSeparator (stripComment (before ++ token ++ after)) =
      fields isSeparator before ++ token :: fields isSeparator (stripComment after) := by
  have code : '#' ∉ before ++ token := by simp [opens.code, piece.code]
  obtain ⟨front, c, rfl⟩ := List.eq_nil_or_concat' before |>.resolve_left opens.some
  have separator : isSeparator c = true := opens.separated c (by simp)
  have gap : ∀ d ∈ [c], isSeparator d = true := List.forall_mem_singleton.mpr separator
  rw [stripComment_append code, List.append_assoc, fields_gap (by simp) gap,
    fields_piece piece.some piece.inside (head_stripComment closes), fields_concat separator]

theorem fields_changed {token' : Token} (matched : token.Matches token') (front back : List Token) :
    List.Forall₂ Token.Matches (front ++ token :: back) (front ++ token' :: back) := by
  induction front with
  | nil => exact .cons matched (List.forall₂_same.mpr fun token _ => .refl token)
  | cons first front ih => exact .cons (.refl first) ih

theorem OperandsRespelled.fields (h : OperandsRespelled rest rest') :
    List.Forall₂ Token.Matches (fields isSeparator (stripComment rest))
      (fields isSeparator (stripComment rest')) := by
  cases h with
  | @separators before gap gap' after behind first second =>
    have code {gap : List Char} (separators : Separators gap) : '#' ∉ before ++ gap := by
      simp [behind.code, separators.code]
    rw [stripComment_append (code first), stripComment_append (code second),
      fields_gap first.some first.all, fields_gap second.some second.all]
    exact List.forall₂_same.mpr fun token _ => .refl token
  | dollar opens named closes =>
    have piece := piece_of_registerName named
    have dollar := piece.cons (c := '$') ⟨rfl, by decide, by decide, by decide⟩
    rw [fields_operand opens piece closes, fields_operand opens dollar closes]
    exact fields_changed (Token.matches_dollar named) _ _
  | baseDollar opens front free named closes =>
    have piece := piece_of_registerName named
    have dollar := piece.cons (c := '$') ⟨rfl, by decide, by decide, by decide⟩
    rw [fields_operand opens (piece_displacement front piece) closes,
      fields_operand opens (piece_displacement front dollar) closes]
    exact fields_changed (Token.matches_base_dollar named free) _ _

theorem Piece.trim_eq (h : Piece token) : trim token = token := by
  have visible : ∀ c ∈ token, isBlank c = false := fun c mem =>
    (Bool.or_eq_false_iff.mp (h.inside c mem)).2
  exact trim_eq_self (fun c mem => visible c (List.mem_of_mem_head? mem))
    (fun c mem => visible c (List.mem_of_mem_getLast? mem))

theorem Separators.head (h : Separators gap) : ∀ c ∈ (gap ++ after).head?, isSeparator c = true := by
  obtain ⟨d, rest, rfl⟩ := List.exists_cons_of_ne_nil h.some
  rintro _ ⟨⟩
  exact h.all d List.mem_cons_self

theorem displacement?_of_written {written : Token} (piece : Piece disp) (place : Piece base)
    (free : '(' ∉ disp) (same : written = disp ∨ written = [] ∧ disp = ['0']) :
    Token.displacement? (written ++ '(' :: (base ++ [')'])) = some (disp, base) := by
  obtain rfl | ⟨rfl, rfl⟩ := same
  · rw [Token.displacement?_written free, piece.trim_eq, place.trim_eq, if_neg (by simp [piece.some])]
  · rw [Token.displacement?_written (by simp), place.trim_eq]
    rfl

theorem Displaced.exists_fields (h : Displaced rest rest') :
    ∃ ra base disp token, Token.displacement? token = some (disp, base) ∧
      fields isSeparator (stripComment rest) = [ra, base, disp] ∧
      fields isSeparator (stripComment rest') = [ra, token] := by
  obtain @⟨lead, gap, gap', after, ra, base, disp, written, behind, separated, first, apart, second,
    apart', third, free, same, closes⟩ := h
  have front : written = [] ∨ Piece written := by
    obtain rfl | ⟨none, -⟩ := same
    · exact .inr third
    · exact .inl none
  have joined : Piece (written ++ '(' :: (base ++ [')'])) := piece_displacement front second
  have last : Fields isSeparator (stripComment after) [] := .none closes
  have closed : ∀ c ∈ (stripComment after).head?, isSeparator c = true := fun c mem =>
    closes c (List.mem_of_mem_head? mem)
  have opened : '#' ∉ lead ++ ra := by simp [behind.code, first.code]
  refine ⟨ra, base, disp, _, displacement?_of_written third second free same, ?_, ?_⟩
  · rw [stripComment_append opened, stripComment_append (by simp [apart.code, second.code]),
      stripComment_append (by simp [apart'.code, third.code])]
    exact Fields.fields_eq (.piece separated first.some first.inside
      (by rw [List.append_assoc]; exact apart.head) (.piece apart.all second.some second.inside
        (by rw [List.append_assoc]; exact apart'.head)
        (.piece apart'.all third.some third.inside closed last)))
  · have code : '#' ∉ gap ++ (written ++ '(' :: (base ++ [')'])) := fun mem =>
      (List.mem_append.mp mem).elim apart.code joined.code
    rw [stripComment_append opened, stripComment_append code]
    exact Fields.fields_eq (.piece separated first.some first.inside
      (by rw [List.append_assoc]; exact apart.head)
      (.piece apart.all joined.some joined.inside closed last))

end Operands

section Lines

variable {row row' name name' : List Char}

theorem isPlain_toLower_iff {c : Char} : Operation.IsPlain c.toLower ↔ Operation.IsPlain c := by
  by_cases upper : c.isUpper
  · have each : ∀ k : Fin 128, (Char.ofNat k).isUpper = true →
        Operation.isPlain [(Char.ofNat k).toLower] = true ∧
          Operation.isPlain [Char.ofNat k] = true := by decide
    have letter : c.isAlpha = true := Bool.or_eq_true_iff.mpr (.inl upper)
    have ascii : c.toNat < 128 := Token.toNat_lt_of_isNameRest
      (by simp [Token.isNameRest, Char.isAlphanum, letter])
    have plain := each ⟨c.toNat, ascii⟩
    rw [Char.ofNat_toNat] at plain
    obtain ⟨lower, same⟩ := plain upper
    simp only [Operation.isPlain_iff, List.forall_mem_singleton] at lower same
    exact iff_of_true lower.2 same.2
  · have kept : c.toLower = c := dif_neg fun bounds => upper (decide_eq_true bounds)
    rw [kept]

theorem isPlain_of_map_toLower (h : name.map Char.toLower = name'.map Char.toLower)
    (plain : Operation.isPlain name = true) : Operation.isPlain name' = true := by
  rw [Operation.isPlain_iff] at plain ⊢
  obtain ⟨full, whole⟩ := plain
  refine ⟨?_, fun c mem => ?_⟩
  · rintro rfl
    exact full (List.map_eq_nil_iff.mp h)
  · have lower : c.toLower ∈ name.map Char.toLower := h ▸ List.mem_map_of_mem mem
    obtain ⟨d, among, same⟩ := List.mem_map.mp lower
    rw [← isPlain_toLower_iff, ← same, isPlain_toLower_iff]
    exact whole d among

theorem Behind.endsMnemonic {before after : List Char} (h : Behind before) :
    EndsMnemonic (before ++ after) := by
  obtain ⟨b, rest, rfl⟩ := List.exists_cons_of_ne_nil h.some
  rintro _ ⟨⟩
  exact .inl (h.blank b rfl)

theorem OperandsRespelled.endsMnemonic {rest rest' : List Char} (h : OperandsRespelled rest rest') :
    EndsMnemonic rest ∧ EndsMnemonic rest' := by
  cases h with
  | separators behind =>
    simp only [List.append_assoc]
    exact ⟨behind.endsMnemonic, behind.endsMnemonic⟩
  | dollar opens | baseDollar opens =>
    simp only [List.append_assoc]
    exact ⟨opens.endsMnemonic, opens.endsMnemonic⟩

theorem Displaced.endsMnemonic {rest rest' : List Char} (h : Displaced rest rest') :
    EndsMnemonic rest ∧ EndsMnemonic rest' := by
  obtain ⟨behind⟩ := h
  simp only [List.append_assoc]
  exact ⟨behind.endsMnemonic, behind.endsMnemonic⟩

theorem LineRespelled.exists_reads (h : LineRespelled row row') : ∃ label op op',
    Reads row label op ∧ Reads row' label op' ∧ op.Respells op' := by
  cases h with
  | mnemonic heading plain lower ends =>
    refine ⟨_, _, _, heading.reads plain ends,
      heading.reads (isPlain_of_map_toLower lower plain) ends, ?_⟩
    rw [lower]
    exact .operands (List.forall₂_same.mpr fun token _ => .refl token)
  | operands heading plain changed =>
    obtain ⟨ends, ends'⟩ := changed.endsMnemonic
    exact ⟨_, _, _, heading.reads plain ends, heading.reads plain ends', .operands changed.fields⟩
  | @displaced head name rest rest' label heading memory changed =>
    obtain ⟨ends, ends'⟩ := changed.endsMnemonic
    obtain ⟨ra, base, disp, token, parts, old, new⟩ := changed.exists_fields
    obtain ⟨opcode, kinds, named⟩ : ∃ opcode : Opcode,
        opcode.operandKinds = [.reg, .reg, .disp] ∧
          name.map Char.toLower = opcode.mnemonic.toList := by
      obtain load | store := memory
      · exact ⟨.lw, rfl, load⟩
      · exact ⟨.sw, rfl, store⟩
    have plain : Operation.isPlain name = true := by
      obtain ⟨whole, lower⟩ := Instruction.plain_mnemonic opcode
      exact isPlain_of_map_toLower (lower.trans named.symm) whole
    refine ⟨_, _, _, heading.reads plain ends, heading.reads plain ends', ?_⟩
    rw [named, String.ofList_toList, old, new]
    exact .displaced kinds parts

end Lines

structure LineContent.Alike (content content' : LineContent) : Prop where
  label : content.label = content'.label
  emitted : List.Forall₂ Operation.Alike content.body.emitted content'.body.emitted

def LinesAlike (row row' : List Char) : Prop := ∀ labels : Labels,
  Agree LineContent.Alike (LineContent.read labels (lineCode row))
    (LineContent.read labels (lineCode row'))

structure Layout.Alike (layout layout' : Layout) : Prop where
  labels : layout.labels = layout'.labels
  statements : List.Forall₂
    (fun s s' : Statement => s.line = s'.line ∧ s.toOperation.Alike s'.toOperation)
    layout.statements.toList layout'.statements.toList

theorem LinesAlike.refl (row : List Char) : LinesAlike row row := by
  intro labels
  exact .of_forall (fun _ => ⟨rfl, List.forall₂_same.mpr fun _ _ _ _ => .refl _⟩) _

section Reading

variable {row row' : List Char} {label : Option Token} {op op' : Operation}

theorem Operation.Respells.lineBody (stands : lineOperation? row = some op)
    (stands' : lineOperation? row' = some op') (h : op.Respells op') :
    Agree (fun body body' : LineBody => List.Forall₂ Operation.Alike body.emitted body'.emitted)
      (LineBody.read (lineBody row)) (LineBody.read (Asm.lineBody row')) := by
  rw [lineOperation?] at stands stands'
  have ignored : op.isIgnored = op'.isIgnored := by
    rw [Operation.isIgnored, h.mnemonic_eq, Operation.isIgnored]
  rw [LineBody.read, LineBody.read, stands, stands']
  dsimp only
  rw [ignored]
  split
  · exact .ok .nil
  · exact h.expand.map fun _ _ alike => alike

theorem linesAlike_of_reads (h : Reads row label op) (h' : Reads row' label op')
    (respelled : op.Respells op') : LinesAlike row row' := by
  intro labels
  rw [LineContent.read, LineContent.read, leadingLabel_lineCode, leadingLabel_lineCode, h.single,
    h'.single, h.label, h'.label]
  refine (Agree.refl (labels.checkNew label)).bind fun _ _ _ => ?_
  exact (respelled.lineBody h.stands h'.stands).bind fun _ _ alike => .ok ⟨rfl, alike⟩

theorem Statement.resolve_alike {s s' : Statement} (alike : s.toOperation.Alike s'.toOperation)
    (labels : Labels) (index : Nat) :
    Agree Eq (s.resolve labels index) (s'.resolve labels index) := by
  have resolved := alike labels index
  rw [Statement.resolve, Statement.resolve]
  generalize s.toOperation.resolve labels index = x at resolved ⊢
  generalize s'.toOperation.resolve labels index = y at resolved ⊢
  cases resolved with
  | ok same => exact .ok same
  | error => exact .error

end Reading

namespace Layout

def accepted : Layout × Option Error → Except Error Layout
  | (layout, none) => .ok layout
  | (_, some e) => .error e

theorem assembleChars_eq_bind (source : List Char) :
    assembleChars source = accepted (ofSource source) >>= Layout.assemble := by
  rw [assembleChars]
  rcases ofSource source with ⟨layout, _ | e⟩ <;> rfl

variable {layout layout' : Layout} {content content' : LineContent} {rows rows' : List (List Char)}

theorem Alike.add (h : layout.Alike layout') (alike : content.Alike content') (line : Nat) :
    (layout.add line content).Alike (layout'.add line content') where
  labels := by
    have size : layout.statements.size = layout'.statements.size := by
      simpa using h.statements.length_eq
    rw [labels_add, labels_add, alike.label]
    cases content'.label with
    | none => exact h.labels
    | some name => rw [define, define, h.labels, size]
  statements := by
    rw [statements_add, statements_add]
    refine List.rel_append h.statements ?_
    rw [List.forall₂_map_left_iff, List.forall₂_map_right_iff]
    exact alike.emitted.imp fun _ _ same => ⟨rfl, same⟩

theorem addLines_alike (lines : List.Forall₂ LinesAlike rows rows') (h : layout.Alike layout')
    (start : Nat) :
    Agree Alike (accepted (layout.addLines ((rows.zipIdx start).filterMap codeLine?)))
      (accepted (layout'.addLines ((rows'.zipIdx start).filterMap codeLine?))) := by
  induction lines generalizing layout layout' start with
  | nil => exact .ok h
  | @cons row row' rows rows' first _ ih =>
    rw [List.zipIdx_cons, List.zipIdx_cons, addLines_codeLine, addLines_codeLine, h.labels]
    have read := first layout'.labels
    generalize LineContent.read layout'.labels (lineCode row) = x at read ⊢
    generalize LineContent.read layout'.labels (lineCode row') = y at read ⊢
    cases read with
    | ok alike => exact ih (h.add alike (start + 1)) (start + 1)
    | error => exact .error

theorem Alike.resolve (h : layout.Alike layout') : Agree Eq layout.resolve layout'.resolve := by
  have pairs (start : Nat) : List.Forall₂
      (fun p q : Statement × Nat =>
        (p.1.line = q.1.line ∧ p.1.toOperation.Alike q.1.toOperation) ∧ p.2 = q.2)
      (layout.statements.toList.zipIdx start) (layout'.statements.toList.zipIdx start) := by
    have statements := h.statements
    generalize layout.statements.toList = xs at statements ⊢
    generalize layout'.statements.toList = ys at statements ⊢
    induction statements generalizing start with
    | nil => exact .nil
    | cons first _ ih => exact .cons ⟨first, rfl⟩ (ih (start + 1))
  rw [Layout.resolve, Layout.resolve, h.labels, ← List.forall₂_eq_eq_eq]
  refine Agree.mapM (pairs 0) ?_
  rintro ⟨s, i⟩ ⟨s', -⟩ ⟨⟨line, alike⟩, rfl⟩
  dsimp only at line alike ⊢
  rw [line]
  exact (Statement.resolve_alike alike layout'.labels i).bind fun r r' same => .ok (by rw [same])

theorem Alike.assemble (h : layout.Alike layout') : Agree Eq layout.assemble layout'.assemble :=
  h.resolve.bind fun _ _ same => same ▸ .refl _

end Layout

theorem Respelled.agree {source target : List Char} (h : Respelled source target) :
    Agree Eq (assembleChars source) (assembleChars target) := by
  obtain @⟨before, row, row', after, starts, ends, inside, inside', changed⟩ := h
  obtain ⟨label, op, op', reads, reads', respelled⟩ := changed.exists_reads
  obtain ⟨front, -, pieces⟩ := starts.exists_cut
  obtain ⟨blanks, back, all, closed⟩ := ends.exists_cut
  have rows {row : List Char} (inside : '\n' ∉ row) : Layout.ofSource (before ++ row ++ after) =
      Layout.ofRows (front ++ (row ++ blanks) :: back) := by
    rw [Layout.ofSource_eq_ofRows_cut, List.append_assoc, pieces,
      closed row [] row (cut_eq_singleton (ne_separator inside)), List.nil_append]
  have alike : LinesAlike (row ++ blanks) (row' ++ blanks) := by
    intro labels
    rw [lineCode_append_blanks all, lineCode_append_blanks all]
    exact linesAlike_of_reads reads reads' respelled labels
  have refl (rows : List (List Char)) : List.Forall₂ LinesAlike rows rows :=
    List.forall₂_same.mpr fun row _ => .refl row
  rw [Layout.assembleChars_eq_bind, Layout.assembleChars_eq_bind, rows inside, rows inside']
  have start : Layout.Alike .empty .empty := ⟨rfl, .nil⟩
  have laid := Layout.addLines_alike (List.rel_append (refl front) (.cons alike (refl back))) start 0
  exact laid.bind fun _ _ layouts => layouts.assemble

theorem assembleChars_of_respelled {source target : List Char}
    (h : Relation.EqvGen Respelled source target) (words : List Word) :
    assembleChars source = .ok words ↔ assembleChars target = .ok words := by
  induction h with
  | rel _ _ changed => exact changed.agree.ok_iff words
  | refl => rfl
  | symm _ _ _ ih => exact ih.symm
  | trans _ _ _ _ _ first second => exact first.trans second

/-- A text makes the same words in any other spelling, after any number of changes, made or taken
back. -/
theorem assemble_of_respelled {source target : String}
    (h : Relation.EqvGen Respelled source.toList target.toList) (words : List Word) :
    assemble source = .ok words ↔ assemble target = .ok words :=
  assembleChars_of_respelled h words

theorem assemble_of_respelled_load :
    assemble "noop\nx: LW $r1 ($r2) # load\n" = .ok [0x0000, 0x6280] := by
  have line {row row' : List Char} (inside : '\n' ∉ row) (inside' : '\n' ∉ row')
      (changed : LineRespelled row row') : Relation.EqvGen Respelled
        ("noop\n".toList ++ row ++ ['\n']) ("noop\n".toList ++ row' ++ ['\n']) :=
    .rel _ _ (.mk (.inr rfl) .newline inside inside' changed)
  have heading : Heading "x: ".toList (some ['x']) :=
    @Heading.label [] [' '] ['x'] (by simp) (by decide) (List.forall_mem_singleton.mpr rfl)
  have load : Operation.isPlain "LW".toList = true := by decide
  have blank : Separators " ".toList := ⟨by decide, List.forall_mem_singleton.mpr rfl⟩
  have comma : Separators ", ".toList :=
    ⟨by decide, List.forall_mem_cons.mpr ⟨rfl, List.forall_mem_singleton.mpr rfl⟩⟩
  have behind : Behind " r1".toList := ⟨by decide, by rintro _ ⟨⟩; rfl, by decide⟩
  have start : Opens " ".toList :=
    ⟨⟨by decide, by rintro _ ⟨⟩; rfl, by decide⟩, by rintro _ ⟨⟩; rfl⟩
  have second : Opens " $r1 ".toList :=
    ⟨⟨by decide, by rintro _ ⟨⟩; rfl, by decide⟩, by rintro _ ⟨⟩; rfl⟩
  have r1 : Token.RegisterName "r1".toList 1 := .mk (.inl rfl) (.inl rfl) (.digit rfl) (by decide)
  have r2 : Token.RegisterName "r2".toList 2 := .mk (.inl rfl) (.inl rfl) (.digit rfl) (by decide)
  have first : Piece "$r1".toList :=
    (piece_of_registerName r1).cons ⟨rfl, by decide, by decide, by decide⟩
  have zero : Piece ['0'] := ⟨by simp, List.forall_mem_singleton.mpr rfl, by decide⟩
  have upper := @LineRespelled.mnemonic "x: ".toList "lw".toList "LW".toList
    " r1, r2, 0 # load".toList _ heading (by decide) (by decide) (by rintro _ ⟨⟩; exact .inl rfl)
  have apart := LineRespelled.operands heading load <|
    @OperandsRespelled.separators " r1".toList ", ".toList " ".toList "r2, 0 # load".toList behind
      comma blank
  have dollar := LineRespelled.operands heading load <|
    @OperandsRespelled.dollar " ".toList "r1".toList " r2, 0 # load".toList _ start r1
      (by rintro _ ⟨⟩; exact .inl rfl)
  have joined := LineRespelled.displaced heading (.inl (by decide : "LW".toList.map _ = _)) <|
    @Displaced.mk " ".toList " ".toList ", ".toList " # load".toList "$r1".toList "r2".toList ['0'] []
      start.toBehind blank.all first blank (piece_of_registerName r2) comma zero (by decide)
      (.inr ⟨rfl, rfl⟩) (List.forall_mem_singleton.mpr rfl :
        ∀ c ∈ stripComment " # load".toList, isSeparator c = true)
  have base := LineRespelled.operands heading load <|
    @OperandsRespelled.baseDollar " $r1 ".toList [] "r2".toList " # load".toList _ second (.inl rfl)
      (by decide) r2 (by rintro _ ⟨⟩; exact .inl rfl)
  have all := (line (by decide) (by decide) upper).trans _ _ _ <|
    (line (by decide) (by decide) apart).trans _ _ _ <|
    (line (by decide) (by decide) dollar).trans _ _ _ <|
    (line (by decide) (by decide) joined).trans _ _ _ <| line (by decide) (by decide) base
  have accepted : assemble "noop\nx: lw r1, r2, 0 # load\n" = .ok [0x0000, 0x6280] := rfl
  exact (@assemble_of_respelled "noop\nx: lw r1, r2, 0 # load\n"
    "noop\nx: LW $r1 ($r2) # load\n" all _).mp accepted

end Backstep.Asm
