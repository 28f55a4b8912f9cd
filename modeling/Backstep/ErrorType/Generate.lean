import Backstep.ErrorType.Nesting
import Backstep.ErrorType.Expansion
import Backstep.ErrorType.Lexer
import Backstep.ErrorType.Declaration

namespace Backstep.ErrorType

def braced (ts : List Token) : List Token := [.opening .brace] ++ ts ++ [.closing .brace]

def parenthesised (ts : List Token) : List Token := [.opening .paren] ++ ts ++ [.closing .paren]

def joined (pieces : List (List Token)) : List Token := commaTokens.intercalate pieces

namespace Param

def nameTokens (p : Param) : List Token :=
  match p.kind with
  | .lifetime => [.punct '\'', .ident p.name]
  | _ => [.ident p.name]

def tokens (p : Param) : List Token :=
  p.attributes ++ match p.kind with
    | .const => code "const" ++ p.nameTokens ++ code ":" ++ arranged p.bounds
    | _ => p.nameTokens ++ (if p.bounds.isEmpty then [] else code ":" ++ arranged p.bounds)

end Param

namespace Generics

def list (g : Generics) (tokens : Param → List Token) : List Token :=
  let written (params : List Param) := params.map fun p => Piece.mk (tokens p) p.comma
  if g.params.isEmpty then []
  else code "<" ++ lifetimesFirst (written (g.params.filter (·.kind == .lifetime)))
    (written (g.params.filter (·.kind != .lifetime))) ++ code ">"

def implTokens (g : Generics) : List Token := g.list Param.tokens

def typeTokens (g : Generics) : List Token := g.list Param.nameTokens

def whereTokens (g : Generics) : List Token :=
  if g.predicates.isEmpty then [] else code "where" ++ arranged g.predicates

end Generics

def Pattern.tokens : Pattern → List Token
  | unit => []
  | tuple binders =>
    parenthesised (joined (binders.map fun binder => [.ident (binder.getD "_")]))
  | named binders =>
    braced (binders.flatMap (fun name => Token.ident name :: commaTokens) ++ code "..")

def selfPath : Option String → List Token
  | none => code "Self"
  | some variant => code "Self::" ++ [.ident variant]

def DisplayArm.argumentTokens (arm : DisplayArm) : List Token :=
  match arm.pattern with
  | .unit => []
  | _ => commaTokens ++ joined (arm.arguments.map fun name => [.ident name, .punct '=', .ident name])

def DisplayArm.tokens (arm : DisplayArm) : List Token :=
  selfPath arm.variant ++ arm.pattern.tokens ++ code "=> write!" ++
    parenthesised (code "f," ++ [.literal (.text arm.message)] ++ arm.argumentTokens) ++ commaTokens

def errorObject : List Token := code "&(dyn ::std::error::Error + 'static)"

def SourceArm.tokens (arm : SourceArm) : List Token :=
  selfPath (some arm.variant) ++ arm.pattern.tokens ++ code "=> ::std::option::Option::Some" ++
    parenthesised ([.ident arm.binder] ++ code "as" ++ errorObject) ++ commaTokens

def Declaration.implTokens (d : Declaration) (trait : String) (body : List Token) : List Token :=
  code "impl" ++ d.generics.implTokens ++ code trait ++ code "for" ++ [.ident d.name] ++
    d.generics.typeTokens ++ d.generics.whereTokens ++ braced body

def Declaration.displayTokens (d : Declaration) (arms : List DisplayArm) : List Token :=
  d.implTokens "::std::fmt::Display"
    (code "fn fmt(&self, f: &mut ::std::fmt::Formatter<'_>) -> ::std::fmt::Result" ++
      braced (code "match self" ++ braced (arms.flatMap DisplayArm.tokens)))

def Declaration.sourceTokens (d : Declaration) (arms : List SourceArm) : List Token :=
  d.implTokens "::std::error::Error"
    (code "#[allow(unreachable_patterns)] fn source(&self) -> ::std::option::Option<" ++
      errorObject ++ code ">" ++
      braced (code "match self" ++ braced
        (arms.flatMap SourceArm.tokens ++ code "_ => ::std::option::Option::None,")))

def Declaration.fromTokens (d : Declaration) (impl : FromImpl) : List Token :=
  let construct := match impl.field with
    | none => parenthesised (code causeBinder)
    | some name => braced ([.ident name] ++ code ":" ++ code causeBinder)
  let type := arranged impl.type
  code "impl ::std::convert::From<" ++ type ++ code "> for" ++ [.ident d.name] ++
    braced (code "fn from(source:" ++ type ++ code ") -> Self" ++
      braced ([.ident d.name] ++ code "::" ++ [.ident impl.variant] ++ construct))

def Declaration.expansionTokens (d : Declaration) : Expansion → List Token
  | .enum variants =>
    d.displayTokens (variants.map (·.display)) ++ d.sourceTokens (variants.filterMap (·.source)) ++
      (variants.filterMap (·.fromImpl)).flatMap d.fromTokens
  | .struct display =>
    d.displayTokens [display] ++ d.implTokens "::std::error::Error" []

def generate (declaration : String) : Except Refusal String :=
  match Declaration.ofTokens? (code declaration) with
  | none => .error .notADeclaration
  | some d => return Token.render (d.expansionTokens (← d.expand))

end Backstep.ErrorType
