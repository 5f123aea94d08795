import UsagePolicy.Scope
import UsagePolicy.Site
import UsagePolicy.SymbolModel

/-! The usage sites of a single node. Only the node itself is looked at, never its children; the
scope says what stands around it. Whatever is unresolved has no site. -/
namespace UsagePolicy

namespace TypeRef

/-- The site of a type written in source. -/
def sites (context : Option SymbolId) (t : TypeRef) : List Site :=
  Site.ofSymbols .type context t.type t.span

end TypeRef

open SymbolModel

variable {M : Type} [SymbolModel M]

/-- The return type of a callable, then the types of its parameters. -/
def SymbolModel.signatureSites (m : M) (context : Option SymbolId) (callable : SymbolId)
    (returnSpan parametersSpan : Span) : List Site :=
  Site.ofSymbols .type context (returnType? m callable) returnSpan ++
    (parameterTypes m callable).flatMap fun p => Site.ofSymbols .type context (some p) parametersSpan

namespace Node

/-- The context in which a node uses things: its own symbol for a declaration, else that of the
scope. -/
def contextIn (n : Node) (scope : Scope) : Option SymbolId := n.kind.declared?.getD scope.context

/-- The import of a namespace into the enclosing one, if both resolve to namespaces. -/
def importSites (m : M) (scope : Scope) (imported : Option SymbolId) (span : Span) :
    List Site :=
  match imported.bind (nameSpace? m), scope.nameSpace.bind (nameSpace? m) with
  | some inner, some outer => [Site.ofNamespaces outer.qualifiedName inner.qualifiedName span]
  | _, _ => []

/-- The sites of a node, in the order in which they are judged. -/
def sites (m : M) (scope : Scope) (n : Node) : List Site :=
  let context := n.contextIn scope
  match n.kind with
  | .nameSpace name nameSpan _ =>
    match scope.namespaceName with
    | some outer => [Site.ofNamespaces outer name nameSpan]
    | none => []
  | .usingDirective imported nameSpan => importSites m scope imported nameSpan
  | .objectCreation type => Site.ofSymbols .type context type n.span
  | .invocation method =>
    match method.filter (isMethod m) with
    | some method =>
      Site.ofSymbols .type context (owner? m method) n.span ++
        signatureSites m context method n.span n.span
    | none => []
  | .memberAccess member =>
    Site.ofSymbols .type context (member.bind (owner? m)) n.span ++
      Site.ofSymbols .type context (member.bind (valueType? m)) n.span
  | .method _ type | .property _ type | .indexer _ type | .field _ type => type.sites context
  | .localVariable type | .parameter type | .typeOf type | .cast type | .asType type
  | .defaultValue type | .arrayCreation type => type.sites context
  | .baseList types => types.flatMap (·.sites context)
  | .genericName symbol =>
    Site.ofSymbols .type context (symbol.filter (isGeneric m)) n.span
  | .delegate symbol identifierSpan returnTypeSpan parameterListSpan =>
    match symbol.filter fun s => (symbol? m s).isSome with
    | some delegate =>
      Site.ofSymbols .delegate context (some delegate) identifierSpan ++
        signatureSites m context delegate returnTypeSpan parameterListSpan
    | none => []
  | .attributeUse ctor nameSpan =>
    Site.ofSymbols .attributeUse context (ctor.bind (owner? m)) nameSpan
  | .lambda signature =>
    match signature.filter (isMethod m) with
    | some signature => signatureSites m context signature n.span n.span
    | none => []
  | .implicitArrayCreation arrayType =>
    Site.ofSymbols .type context (arrayType.bind (elementType? m)) n.span
  | .compilationUnit | .typeDeclaration _ | .other _ => []

end Node

end UsagePolicy
