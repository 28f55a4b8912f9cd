import Backstep.ErrorType.Token

namespace Backstep.ErrorType

inductive Part where
  | text (c : Char)
  | opening
  | closing
  | hole (argument : List Char) (format : Option (List Char))
  deriving DecidableEq

def formatChars : Option (List Char) → List Char
  | none => []
  | some format => ':' :: format

def Part.chars : Part → List Char
  | text c => [c]
  | opening => ['\x7b', '\x7b']
  | closing => ['\x7d', '\x7d']
  | hole argument format => '\x7b' :: (argument ++ (formatChars format ++ ['\x7d']))

def render (parts : List Part) : List Char := parts.flatMap Part.chars

def holes (parts : List Part) : List (List Char) :=
  parts.filterMap fun
    | .hole argument _ => some argument
    | _ => none

def isFormatChar (c : Char) : Bool := c != '\x7b' && c != '\x7d' && c != '$'

def alignments : List Char := ['<', '^', '>']

/-- Any character can fill up a width if an alignment follows it, a brace too. -/
inductive IsFormat : List Char → Prop
  | plain {rest : List Char} : (∀ c ∈ rest, isFormatChar c = true) → IsFormat rest
  | filled {fill align : Char} {rest : List Char} : align ∈ alignments →
      (∀ c ∈ rest, isFormatChar c = true) → IsFormat (fill :: align :: rest)

inductive Part.WellFormed : Part → Prop
  | text {c : Char} : c ≠ '\x7b' → c ≠ '\x7d' → WellFormed (.text c)
  | opening : WellFormed .opening
  | closing : WellFormed .closing
  | hole {argument : List Char} {format : Option (List Char)} :
      (∀ c ∈ argument, isIdentRest c = true) → (∀ f ∈ format, IsFormat f) →
      WellFormed (.hole argument format)

structure Reads (message : List Char) (parts : List Part) : Prop where
  rendered : message = render parts
  wellFormed : ∀ part ∈ parts, part.WellFormed

variable {part : Part} {parts others : List Part} {message argument rest : List Char} {c : Char}
  {format : Option (List Char)}

@[simp] theorem render_nil : render [] = [] := rfl

@[simp] theorem render_cons : render (part :: parts) = part.chars ++ render parts := rfl

@[simp] theorem holes_nil : holes [] = [] := rfl

@[simp] theorem holes_hole : holes (.hole argument format :: parts) = argument :: holes parts :=
  rfl

theorem append_cons_inj {front front' rest rest' : List Char} {close close' : Char}
    (inside : close' ∉ front) (inside' : close ∉ front')
    (eq : front ++ close :: rest = front' ++ close' :: rest') :
    front = front' ∧ close = close' ∧ rest = rest' := by
  induction front generalizing front' with
  | nil =>
    cases front' with
    | nil => simpa using eq
    | cons d front' => exact absurd (by simp [(List.cons.inj eq).1]) inside'
  | cons c front ih =>
    cases front' with
    | nil => exact absurd (by simp [(List.cons.inj eq).1]) inside
    | cons d front' =>
      rw [List.mem_cons, not_or] at inside inside'
      obtain ⟨rfl, later⟩ := List.cons.inj eq
      obtain ⟨rfl, closes⟩ := ih inside.2 inside'.2 later
      exact ⟨rfl, closes⟩

section Interior

theorem ident_ne (ident : isIdentRest c = true) : c ≠ '\x7b' ∧ c ≠ '\x7d' ∧ c ≠ ':' ∧ c ≠ '#' := by
  refine ⟨?_, ?_, ?_, ?_⟩ <;> rintro rfl <;> revert ident <;> decide

theorem alignment_cases (mem : c ∈ alignments) : c = '<' ∨ c = '^' ∨ c = '>' := by
  simpa [alignments] using mem

theorem exists_close (format : Option (List Char)) (rest : List Char) : ∃ close later,
    formatChars format ++ '\x7d' :: rest = close :: later ∧ (close = '\x7d' ∨ close = ':') := by
  cases format with
  | none => exact ⟨_, _, rfl, .inl rfl⟩
  | some f => exact ⟨_, _, rfl, .inr rfl⟩

theorem close_not_mem {close : Char} (ident : ∀ c ∈ argument, isIdentRest c = true)
    (closes : close = '\x7d' ∨ close = ':') : close ∉ argument := by
  intro mem
  have plain := ident_ne (ident close mem)
  obtain rfl | rfl := closes
  · exact plain.2.1 rfl
  · exact plain.2.2.1 rfl

theorem render_hole : render (.hole argument format :: parts) =
    '\x7b' :: (argument ++ (formatChars format ++ '\x7d' :: render parts)) := by
  simp [Part.chars]

theorem interior_ne (ident : ∀ c ∈ argument, isIdentRest c = true) :
    argument ++ (formatChars format ++ '\x7d' :: message) ≠ '\x7b' :: rest := by
  obtain ⟨close, later, eq, closes⟩ := exists_close format message
  rw [eq]
  intro same
  cases argument with
  | nil =>
    obtain ⟨rfl, -⟩ := List.cons.inj same
    simp at closes
  | cons c argument =>
    obtain ⟨rfl, -⟩ := List.cons.inj same
    exact (ident_ne (ident _ List.mem_cons_self)).1 rfl

end Interior

section Reading

variable (wellFormed : ∀ part ∈ parts, part.WellFormed)
include wellFormed

theorem exists_text (eq : render parts = c :: rest) (text : c ≠ '\x7b' ∧ c ≠ '\x7d') :
    ∃ later, parts = .text c :: later ∧ rest = render later := by
  cases parts with
  | nil => cases eq
  | cons part parts =>
    cases part with
    | text d =>
      obtain ⟨rfl, rfl⟩ := List.cons.inj eq
      exact ⟨parts, rfl, rfl⟩
    | opening => exact absurd (List.cons.inj eq).1.symm text.1
    | closing => exact absurd (List.cons.inj eq).1.symm text.2
    | hole => exact absurd (List.cons.inj eq).1.symm text.1

theorem exists_closing (eq : render parts = '\x7d' :: rest) :
    ∃ later, parts = .closing :: later ∧ rest = '\x7d' :: render later := by
  cases parts with
  | nil => cases eq
  | cons part parts =>
    cases part with
    | text d =>
      obtain ⟨rfl, -⟩ := List.cons.inj eq
      cases wellFormed _ List.mem_cons_self with
      | text _ closing => exact absurd rfl closing
    | opening => cases (List.cons.inj eq).1
    | closing => exact ⟨parts, rfl, (List.cons.inj eq).2.symm⟩
    | hole => cases (List.cons.inj eq).1

theorem exists_behind_text {front : List Char} (eq : render parts = front ++ rest)
    (text : ∀ c ∈ front, c ≠ '\x7b' ∧ c ≠ '\x7d') :
    ∃ later, (∀ part ∈ later, part.WellFormed) ∧ rest = render later := by
  induction front generalizing parts with
  | nil => exact ⟨parts, wellFormed, eq.symm⟩
  | cons c front ih =>
    rw [List.forall_mem_cons] at text
    obtain ⟨later, rfl, behind⟩ := exists_text wellFormed eq text.1
    rw [List.forall_mem_cons] at wellFormed
    exact ih wellFormed.2 behind.symm text.2

variable (wellFormed' : ∀ part ∈ others, part.WellFormed)
include wellFormed'

theorem render_ne_closing_cons : render parts ≠ '\x7d' :: render others := by
  induction parts generalizing others with
  | nil => simp
  | cons part parts ih =>
    intro eq
    obtain ⟨_, same, behind⟩ := exists_closing wellFormed eq
    obtain ⟨rfl, rfl⟩ := List.cons.inj same
    obtain ⟨later, rfl, further⟩ := exists_closing wellFormed' behind
    rw [List.forall_mem_cons] at wellFormed wellFormed'
    exact ih wellFormed.2 wellFormed'.2 further

theorem eq_of_plain_format {f f' : List Char} (plain : ∀ c ∈ f, isFormatChar c = true)
    (format : IsFormat f') (eq : f ++ '\x7d' :: render parts = f' ++ '\x7d' :: render others) :
    f = f' ∧ render parts = render others := by
  have open' {f : List Char} (plain : ∀ c ∈ f, isFormatChar c = true) : '\x7d' ∉ f :=
    fun mem => by cases plain _ mem
  have same (closed : '\x7d' ∉ f') := append_cons_inj (open' plain) closed eq
  cases format with
  | plain plain' =>
    obtain ⟨rfl, -, eq⟩ := same (open' plain')
    exact ⟨rfl, eq⟩
  | @filled fill align rest mem plain' =>
    have aligned : align ≠ '\x7b' ∧ align ≠ '\x7d' := by
      obtain rfl | rfl | rfl := alignment_cases mem <;> decide
    by_cases brace : fill = '\x7d'
    · -- Had the format been closed by what fills up the other one, a closing brace would be left over.
      subst brace
      cases f with
      | cons c f =>
        obtain ⟨rfl, -⟩ := List.cons.inj eq
        cases plain _ List.mem_cons_self
      | nil =>
        have text : ∀ c ∈ align :: rest, c ≠ '\x7b' ∧ c ≠ '\x7d' := by
          rw [List.forall_mem_cons]
          refine ⟨aligned, fun c mem => ?_⟩
          have := plain' c mem
          simp_all [isFormatChar]
        obtain ⟨later, formed, eq⟩ := exists_behind_text wellFormed (List.cons.inj eq).2 text
        exact absurd eq.symm (render_ne_closing_cons formed wellFormed')
    · obtain ⟨rfl, -, eq⟩ := same (by simp [Ne.symm brace, Ne.symm aligned.2, open' plain'])
      exact ⟨rfl, eq⟩

theorem eq_of_format {f f' : List Char} (format : IsFormat f) (format' : IsFormat f')
    (eq : f ++ '\x7d' :: render parts = f' ++ '\x7d' :: render others) :
    f = f' ∧ render parts = render others := by
  cases format with
  | plain plain => exact eq_of_plain_format wellFormed wellFormed' plain format' eq
  | @filled fill align rest mem text =>
    cases format' with
    | plain plain' =>
      obtain ⟨same, behind⟩ :=
        eq_of_plain_format wellFormed' wellFormed plain' (.filled mem text) eq.symm
      exact ⟨same.symm, behind.symm⟩
    | filled _ text' =>
      simp only [List.cons_append, List.cons.injEq] at eq
      obtain ⟨rfl, rfl, eq⟩ := eq
      obtain ⟨rfl, behind⟩ := eq_of_plain_format wellFormed wellFormed' text (.plain text') eq
      exact ⟨rfl, behind⟩

theorem eq_of_interior {argument' : List Char} {format' : Option (List Char)}
    (ident : ∀ c ∈ argument, isIdentRest c = true) (formats : ∀ f ∈ format, IsFormat f)
    (ident' : ∀ c ∈ argument', isIdentRest c = true) (formats' : ∀ f ∈ format', IsFormat f)
    (eq : argument ++ (formatChars format ++ '\x7d' :: render parts) =
      argument' ++ (formatChars format' ++ '\x7d' :: render others)) :
    argument = argument' ∧ format = format' ∧ render parts = render others := by
  obtain ⟨close, later, shape, closes⟩ := exists_close format (render parts)
  obtain ⟨close', later', shape', closes'⟩ := exists_close format' (render others)
  have split := eq
  rw [shape, shape'] at split
  obtain ⟨rfl, -, -⟩ :=
    append_cons_inj (close_not_mem ident closes') (close_not_mem ident' closes) split
  replace eq := List.append_cancel_left eq
  cases format with
  | none =>
    cases format' with
    | none => exact ⟨rfl, rfl, (List.cons.inj eq).2⟩
    | some f' => cases (List.cons.inj eq).1
  | some f =>
    cases format' with
    | none => cases (List.cons.inj eq).1
    | some f' =>
      obtain ⟨rfl, behind⟩ := eq_of_format wellFormed wellFormed' (formats f rfl) (formats' f' rfl)
        (List.cons.inj eq).2
      exact ⟨rfl, rfl, behind⟩

theorem render_inj (eq : render parts = render others) : parts = others := by
  induction parts generalizing others with
  | nil =>
    cases others with
    | nil => rfl
    | cons part others => cases part <;> cases eq
  | cons part parts ih =>
    cases others with
    | nil => cases part <;> cases eq
    | cons part' others =>
      rw [List.forall_mem_cons] at wellFormed wellFormed'
      obtain ⟨formed, later⟩ := wellFormed
      obtain ⟨formed', later'⟩ := wellFormed'
      cases formed with
      | text opening closing =>
        cases formed' with
        | text =>
          obtain ⟨rfl, behind⟩ := List.cons.inj eq
          rw [ih later later' behind]
        | opening => exact absurd (List.cons.inj eq).1 opening
        | closing => exact absurd (List.cons.inj eq).1 closing
        | hole => exact absurd (List.cons.inj eq).1 opening
      | opening =>
        cases formed' with
        | text opening => exact absurd (List.cons.inj eq).1.symm opening
        | opening => rw [ih later later' (List.append_cancel_left eq)]
        | closing => cases (List.cons.inj eq).1
        | hole ident =>
          rw [render_hole] at eq
          exact absurd (List.cons.inj eq).2.symm (interior_ne ident)
      | closing =>
        cases formed' with
        | text _ closing => exact absurd (List.cons.inj eq).1.symm closing
        | opening => cases (List.cons.inj eq).1
        | closing => rw [ih later later' (List.append_cancel_left eq)]
        | hole => cases (List.cons.inj eq).1
      | hole ident formats =>
        rw [render_hole] at eq
        cases formed' with
        | text opening => exact absurd (List.cons.inj eq).1.symm opening
        | opening => exact absurd (List.cons.inj eq).2 (interior_ne ident)
        | closing => cases (List.cons.inj eq).1
        | hole ident' formats' =>
          rw [render_hole] at eq
          obtain ⟨rfl, rfl, behind⟩ := eq_of_interior later later' ident formats ident' formats'
            (List.cons.inj eq).2
          rw [ih later later' behind]

end Reading

theorem Reads.unique (h : Reads message parts) (h' : Reads message others) : others = parts :=
  render_inj h'.wellFormed h.wellFormed (h'.rendered.symm.trans h.rendered)

end Backstep.ErrorType
