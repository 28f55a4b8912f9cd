import Mathlib.Data.List.Basic
import Backstep.ErrorType.Generate
import Backstep.Proofs.ExceptLaws

namespace Backstep.ErrorType

def formatter : List Char := ['f']

def comma : Token := .punct ','

def Pattern.written : Pattern → List Token
  | .unit => []
  | .tuple binders =>
    .opening .paren ::
      (binders.map fun binder => .ident (binder.getD "_")).intersperse comma ++ [.closing .paren]
  | .named binders =>
    .opening .brace :: binders.flatMap (fun name => [.ident name, comma]) ++
      [.punct '.', .punct '.', .closing .brace]

def selfWritten : Option String → List Token
  | none => [.ident "Self"]
  | some variant => [.ident "Self", .punct ':', .punct ':', .ident variant]

def DisplayArm.argumentsWritten (arm : DisplayArm) : List Token :=
  match arm.pattern with
  | .unit => []
  | _ => comma :: [comma].intercalate
      (arm.arguments.map fun name => [.ident name, .punct '=', .ident name])

def DisplayArm.written (arm : DisplayArm) : List Token :=
  selfWritten arm.variant ++ arm.pattern.written ++ code "=> write!(" ++
    .ident (String.ofList formatter) :: comma :: .literal (.text arm.message) ::
      (arm.argumentsWritten ++ [.closing .paren, comma])

def SourceArm.written (arm : SourceArm) : List Token :=
  selfWritten (some arm.variant) ++ arm.pattern.written ++ code "=> ::std::option::Option::Some(" ++
    .ident arm.binder :: code "as &(dyn ::std::error::Error + 'static)),"

def FromImpl.constructed (impl : FromImpl) (type : String) : List Token :=
  .ident type :: code "::" ++ .ident impl.variant ::
    match impl.field with
    | none => code "(source)"
    | some name => .opening .brace :: .ident name :: code ": source \x7d"

def FromImpl.written (impl : FromImpl) (type : String) : List Token :=
  code "impl ::std::convert::From<" ++ arranged impl.type ++ code "> for" ++ .ident type ::
    (code "\x7b fn from(source:" ++ arranged impl.type ++ code ") -> Self \x7b" ++
      impl.constructed type ++ [.closing .brace, .closing .brace])

def fmtWritten (arms : List DisplayArm) : List Token :=
  code "fn fmt(&self," ++ .ident (String.ofList formatter) ::
    (code ": &mut ::std::fmt::Formatter<'_>) -> ::std::fmt::Result \x7b match self \x7b" ++
      arms.flatMap DisplayArm.written ++ [.closing .brace, .closing .brace])

def sourceWritten : Option (List SourceArm) → List Token
  | none => []
  | some arms =>
    code "#[allow(unreachable_patterns)] fn source(&self)" ++
      code "-> ::std::option::Option<&(dyn ::std::error::Error + 'static)> \x7b match self \x7b" ++
      arms.flatMap SourceArm.written ++ code "_ => ::std::option::Option::None, \x7d \x7d"

namespace Expansion

def displays : Expansion → List DisplayArm
  | .enum codes => codes.map (·.display)
  | .struct display => [display]

def method? : Expansion → Option (List SourceArm)
  | .enum codes => some (codes.filterMap (·.source))
  | .struct _ => none

def conversions : Expansion → List FromImpl
  | .enum codes => codes.filterMap (·.fromImpl)
  | .struct _ => []

end Expansion

namespace Declaration

def implWritten (d : Declaration) (trait : String) (body : List Token) : List Token :=
  code "impl" ++ d.generics.implTokens ++ code trait ++ code "for" ++ .ident d.name ::
    (d.generics.typeTokens ++ d.generics.whereTokens ++ .opening .brace :: body ++ [.closing .brace])

/-- The generated code: `Display`, `Error` with its `source` if it has one, and a `From` for each
conversion. -/
def written (d : Declaration) (expansion : Expansion) : List Token :=
  d.implWritten "::std::fmt::Display" (fmtWritten expansion.displays) ++
    d.implWritten "::std::error::Error" (sourceWritten expansion.method?) ++
    expansion.conversions.flatMap (·.written d.name)

end Declaration

section Types

variable {t : Token} {ts piece inner : List Token} {opened : List Opened}

theorem flatMap_piecesFrom {σ : Type} (scan : Scan σ) (state : σ) :
    (piecesFrom scan state piece ts).flatMap Piece.withComma = piece.reverse ++ ts := by
  induction ts generalizing state piece with
  | nil => cases piece <;> simp [piecesFrom, Piece.withComma]
  | cons t ts ih =>
    rw [piecesFrom]
    split
    case isTrue ends =>
      obtain rfl : t = .punct ',' := eq_of_beq (Bool.and_eq_true_iff.mp ends).2
      rw [List.flatMap_cons, ih]
      simp [Piece.withComma, commaTokens]
    case isFalse => simp [ih]

theorem arrangedArguments_eq_self (free : .punct '\'' ∉ ts) : arrangedArguments ts = ts := by
  have whole : (pieces typeScan ts).flatMap Piece.withComma = ts := flatMap_piecesFrom _ _
  have others : ∀ p ∈ pieces typeScan ts, p.isLifetime = false := by
    intro p mem
    have inside : p.tokens ⊆ ts := by
      intro t here
      rw [← whole]
      exact List.mem_flatMap.mpr ⟨p, mem, List.mem_append_left _ here⟩
    rw [Piece.isLifetime]
    split
    case h_1 name shape => exact absurd (inside (shape ▸ List.mem_cons_self)) free
    case h_2 => rfl
  have none : (pieces typeScan ts).filter Piece.isLifetime = [] :=
    List.filter_eq_nil_iff.mpr fun p mem => by simp [others p mem]
  have all : (pieces typeScan ts).filter (!·.isLifetime) = pieces typeScan ts :=
    List.filter_eq_self.mpr fun p mem => by simp [others p mem]
  rw [arrangedArguments, List.partition_eq_filter_filter]
  simp only [Function.comp_def, none, all]
  simpa [lifetimesFirst] using whole

def rejoined (opened : List Opened) (inner : List Token) : List Token :=
  opened.foldl (fun inner o => o.rejoin inner) inner

theorem rejoined_cons (t : Token) (opened : List Opened) (inner : List Token) :
    rejoined opened (t :: inner) = t :: rejoined opened inner := by
  induction opened generalizing inner with
  | nil => rfl
  | cons o outer ih => exact ih (o.rejoin inner)

theorem subset_rejoined (opened : List Opened) (inner : List Token) :
    inner ⊆ rejoined opened inner := by
  induction opened generalizing inner with
  | nil => exact List.Subset.refl inner
  | cons o outer ih => exact List.Subset.trans (List.subset_append_left _ _) (ih (o.rejoin inner))

theorem rejoined_closeDelimiter :
    rejoined (closeDelimiter t opened inner).1 (closeDelimiter t opened inner).2 =
      rejoined opened (t :: inner) := by
  induction opened generalizing inner with
  | nil => rfl
  | cons o outer ih =>
    rw [closeDelimiter]
    split
    case isTrue => exact ih
    case isFalse => rfl

theorem rejoined_closeAngle (free : .punct '\'' ∉ inner) :
    rejoined (closeAngle opened inner).1 (closeAngle opened inner).2 =
      rejoined opened (.punct '>' :: inner) := by
  have same : arrangedArguments inner.reverse = inner.reverse :=
    arrangedArguments_eq_self (mt List.mem_reverse.mp free)
  cases opened with
  | nil => rfl
  | cons o outer =>
    rw [closeAngle, same, List.reverse_reverse]
    split <;> rfl

theorem arrangeFrom_eq (free : .punct '\'' ∉ rejoined opened inner) (later : .punct '\'' ∉ ts) :
    arrangeFrom opened inner ts = (rejoined opened inner).reverse ++ ts := by
  induction ts generalizing opened inner with
  | nil => rw [arrangeFrom, rejoined, List.append_nil]
  | cons t ts ih =>
    rw [List.mem_cons, not_or] at later
    -- However a token is taken in, it comes behind what has been read before.
    have step {outer : List Opened} {rest : List Token}
        (same : rejoined outer rest = rejoined opened (t :: inner)) :
        arrangeFrom outer rest ts = (rejoined opened inner).reverse ++ t :: ts := by
      rw [rejoined_cons] at same
      rw [ih (by simp [same, later.1, free]) later.2, same, List.reverse_cons, List.append_assoc]
      rfl
    cases t with
    | opening d => exact step rfl
    | closing d => exact step rejoined_closeDelimiter
    | ident name => exact step rfl
    | literal l => exact step rfl
    | punct c =>
      rw [arrangeFrom.eq_def]
      dsimp only
      split
      case isTrue => exact step rfl
      case isFalse =>
        split
        case isTrue closes =>
          have angle : Token.punct c = .punct '>' := eq_of_beq (Bool.and_eq_true_iff.mp closes).1
          have inside : .punct '\'' ∉ inner := fun mem => free (subset_rejoined opened inner mem)
          exact step ((rejoined_closeAngle inside).trans (by rw [angle]))
        case isFalse => exact step rfl

/-- A type that names no lifetime is written as it stands. -/
theorem arranged_eq_self (free : .punct '\'' ∉ ts) : arranged ts = ts :=
  arrangeFrom_eq List.not_mem_nil free

end Types

section Spelling

/-- A string literal is read as its characters, which costs less than to decode its bytes. -/
theorem code_ofList (cs : List Char) : code (String.ofList cs) = lex cs := by
  rw [code, String.toList_ofList]

theorem joined_singletons {α : Type} (f : α → Token) (xs : List α) :
    joined (xs.map fun x => [f x]) = (xs.map f).intersperse comma := by
  rw [joined, List.intercalate]
  induction xs with
  | nil => rfl
  | cons x xs ih =>
    cases xs with
    | nil => rfl
    | cons y ys => simpa [commaTokens, comma] using ih

theorem Pattern.tokens_eq (pattern : Pattern) : pattern.tokens = pattern.written := by
  cases pattern with
  | unit => rfl
  | tuple binders => rw [tokens, joined_singletons]; rfl
  | named binders =>
    have rest : code ".." = [.punct '.', .punct '.'] := by decide +kernel
    rw [tokens, rest]
    simp [written, braced, commaTokens, comma]

theorem selfPath_eq (variant : Option String) : selfPath variant = selfWritten variant := by
  cases variant with
  | none => decide +kernel
  | some variant =>
    have path : code "Self::" = [.ident "Self", .punct ':', .punct ':'] := by decide +kernel
    rw [selfPath, path]
    rfl

theorem DisplayArm.tokens_eq (arm : DisplayArm) : arm.tokens = arm.written := by
  have head : code "=> write!(" = code "=> write!" ++ [.opening .paren] := by decide +kernel
  have formatted : code "f," = [.ident (String.ofList formatter), comma] := by decide +kernel
  have arguments : arm.argumentTokens = arm.argumentsWritten := by
    rw [argumentTokens, argumentsWritten]
    cases arm.pattern <;> rfl
  rw [tokens, written, selfPath_eq, Pattern.tokens_eq, arguments, head, formatted]
  simp [parenthesised, commaTokens, comma]

theorem SourceArm.tokens_eq (arm : SourceArm) : arm.tokens = arm.written := by
  have head : code "=> ::std::option::Option::Some(" =
      code "=> ::std::option::Option::Some" ++ [.opening .paren] := by
    rw [code_ofList, code_ofList]
    decide +kernel
  have cast : code "as &(dyn ::std::error::Error + 'static))," =
      code "as" ++ errorObject ++ [.closing .paren, comma] := by
    rw [errorObject, code_ofList, code_ofList, code_ofList]
    decide +kernel
  rw [tokens, written, selfPath_eq, Pattern.tokens_eq, head, cast]
  simp [parenthesised, commaTokens, comma]

namespace Declaration

theorem implTokens_eq (d : Declaration) (trait : String) (body : List Token) :
    d.implTokens trait body = d.implWritten trait body := by
  simp [implTokens, implWritten, braced]

theorem fromTokens_eq (d : Declaration) (impl : FromImpl) :
    d.fromTokens impl = impl.written d.name := by
  have head : code "\x7b fn from(source:" = .opening .brace :: code "fn from(source:" := by
    decide +kernel
  have body : code ") -> Self \x7b" = code ") -> Self" ++ [.opening .brace] := by decide +kernel
  obtain ⟨variant, field, type⟩ := impl
  rw [fromTokens, FromImpl.written, FromImpl.constructed, head, body]
  cases field with
  | none =>
    have value : code "(source)" = parenthesised (code causeBinder) := by decide +kernel
    simp [braced, value]
  | some name =>
    have value : code ": source \x7d" = code ":" ++ code causeBinder ++ [.closing .brace] := by
      decide +kernel
    simp [braced, value]

theorem displayTokens_eq (d : Declaration) (arms : List DisplayArm) :
    d.displayTokens arms = d.implWritten "::std::fmt::Display" (fmtWritten arms) := by
  have head : code "fn fmt(&self, f: &mut ::std::fmt::Formatter<'_>) -> ::std::fmt::Result" =
      code "fn fmt(&self," ++ .ident (String.ofList formatter) ::
        code ": &mut ::std::fmt::Formatter<'_>) -> ::std::fmt::Result" := by
    rw [code_ofList, code_ofList, code_ofList]
    decide +kernel
  have body : code ": &mut ::std::fmt::Formatter<'_>) -> ::std::fmt::Result \x7b match self \x7b" =
      code ": &mut ::std::fmt::Formatter<'_>) -> ::std::fmt::Result" ++ .opening .brace ::
        (code "match self" ++ [.opening .brace]) := by
    rw [code_ofList, code_ofList, code_ofList]
    decide +kernel
  have each : DisplayArm.tokens = DisplayArm.written := funext DisplayArm.tokens_eq
  rw [displayTokens, implTokens_eq, fmtWritten, head, body, each]
  simp [braced]

theorem sourceTokens_eq (d : Declaration) (arms : List SourceArm) :
    d.sourceTokens arms = d.implWritten "::std::error::Error" (sourceWritten (some arms)) := by
  have head :
      code "-> ::std::option::Option<&(dyn ::std::error::Error + 'static)> \x7b match self \x7b" =
        code "-> ::std::option::Option<" ++ errorObject ++ code ">" ++ .opening .brace ::
          (code "match self" ++ [.opening .brace]) := by
    rw [errorObject, code_ofList, code_ofList, code_ofList, code_ofList, code_ofList]
    decide +kernel
  have signature : code "#[allow(unreachable_patterns)] fn source(&self) -> ::std::option::Option<" =
      code "#[allow(unreachable_patterns)] fn source(&self)" ++ code "-> ::std::option::Option<" := by
    rw [code_ofList, code_ofList, code_ofList]
    decide +kernel
  have last : code "_ => ::std::option::Option::None, \x7d \x7d" =
      code "_ => ::std::option::Option::None," ++ [.closing .brace, .closing .brace] := by
    rw [code_ofList, code_ofList]
    decide +kernel
  have each : SourceArm.tokens = SourceArm.written := funext SourceArm.tokens_eq
  rw [sourceTokens, implTokens_eq, sourceWritten, head, signature, last, each]
  simp [braced]

theorem expansionTokens_eq (d : Declaration) (expansion : Expansion) :
    d.expansionTokens expansion = d.written expansion := by
  have each : d.fromTokens = (·.written d.name) := funext (fromTokens_eq d)
  cases expansion with
  | enum codes => rw [expansionTokens, displayTokens_eq, sourceTokens_eq, each]; rfl
  | struct display =>
    rw [expansionTokens, displayTokens_eq, implTokens_eq]
    exact (List.append_nil _).symm

end Declaration

theorem generate_eq {d : Declaration} {expansion : Expansion} {text : String}
    (read : Declaration.ofTokens? (code text) = some d)
    (accepted : d.expand = .ok expansion) :
    generate text = .ok (Token.render (d.written expansion)) := by
  rw [generate, read]
  dsimp only
  rw [accepted, ok_bind, pure_eq_ok, Declaration.expansionTokens_eq]

end Spelling

end Backstep.ErrorType
