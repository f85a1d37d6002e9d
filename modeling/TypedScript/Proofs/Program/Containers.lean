import TypedScript.Proofs.Program.Entered
import TypedScript.Proofs.Program.Prelude
import TypedScript.Proofs.Typing.Bodies
import TypedScript.Proofs.Typing.Containers

namespace TypedScript

open Typing

def Typing.Container.library : Container → String
  | array => "ArrayLib"
  | map => "MapLib"

namespace Interface

def layout (interface : Interface) : List (String × Ty) := interface.fields.map fun field => (field.name, field.type)

def Entered (catalog : Catalog) : Interface → Prop
  | delegate returns name parameters => catalog.delegate? (.named name) = some ⟨returns, parameters.map Prod.fst⟩
  | struct name fields => catalog.struct? (.named name) = some (struct name fields).layout
  | global type name => catalog.owner? name = some .global ∧ (Scope.root catalog).get? name = some type

end Interface

section Listed

variable {catalog : Catalog} {decls : List Declaration} (lists : catalog.Lists (.of decls))
include lists

theorem Catalog.Lists.root_global {decl : Variable} (member : .global decl ∈ decls) :
    catalog.owner? decl.name = some .global ∧ (Scope.root catalog).get? decl.name = some decl.type := by
  have owner : catalog.owner? decl.name = some .global := (lists.names _ _).mpr ⟨_, member, rfl, rfl⟩
  have stored : catalog.globals.get? decl.name = some decl.type := (lists.globals _ _).mpr ⟨decl, member, rfl, rfl⟩
  have alone {found : Declaration} (listed : found ∈ decls) (same : found.name = decl.name) :
      found.owner = .global := by
    have other : catalog.owner? decl.name = some found.owner := (lists.names _ _).mpr ⟨found, listed, same, rfl⟩
    exact Option.some.inj (other.symm.trans owner)
  have plain : catalog.enums.get? decl.name = none := by
    refine Option.eq_none_iff_forall_ne_some.mpr fun members found => ?_
    obtain ⟨other, listed, same, -⟩ := (lists.enums _ _).mp found
    cases alone listed same
  have stated : catalog.functions.get? decl.name = none := by
    refine Option.eq_none_iff_forall_ne_some.mpr fun type found => ?_
    obtain ⟨other, listed, same, -⟩ := (lists.functions _ _).mp found
    cases alone listed same
  refine ⟨owner, ?_⟩
  rw [Scope.get?_root, plain, stated, stored]
  rfl

theorem Interface.Makes.entered {interface : Interface} {decl : Declaration} (makes : interface.Makes decl)
    (member : decl ∈ decls) : interface.Entered catalog := by
  cases makes with
  | delegate => exact (lists.delegates _ _).mpr (.inl ⟨_, member, rfl, rfl⟩)
  | @struct name fields made span each =>
    refine (lists.structs _ _).mpr ⟨_, member, rfl, ?_⟩
    exact (map_eq_of_forall₂ each fun _ _ line => by rw [line.type, line.name]).symm
  | @global type name made line =>
    obtain ⟨owner, bound⟩ := lists.root_global member
    rw [line.name] at owner bound
    rw [line.type] at bound
    exact ⟨owner, bound⟩

theorem Interface.entered_each {list : List Interface} {made : List Declaration}
    (makes : List.Forall₂ Makes list made) (inside : ∀ decl ∈ made, decl ∈ decls) :
    ∀ interface ∈ list, interface.Entered catalog := by
  induction makes with
  | nil => exact List.forall_mem_nil _
  | cons first _ ih =>
    obtain ⟨here, later⟩ := List.forall_mem_cons.mp inside
    exact List.forall_mem_cons.mpr ⟨first.entered lists here, ih later⟩

end Listed

namespace Prelude

theorem file_made {options : Options} {given : List Source} {files : List File} {entered : Catalog}
    (wanted : options.prelude = true) (read : readSources options given = .ok (files, entered)) :
    ∃ file ∈ files, List.Forall₂ Interface.Makes interfaces file.declarations := by
  obtain ⟨tokens, entries, named, scanned, outlined, -, parsed⟩ := accepted
  obtain ⟨streams, outlines, claimed, next, scans, outlining, parsing⟩ := readSources_phases read
  have sources : options.sources given = ⟨path, text⟩ :: given := by
    unfold Options.sources
    rw [if_pos wanted]
  rw [sources, List.mapM_cons] at scans
  obtain ⟨first, scan, rest⟩ := except_bind_ok.mp scans
  cases scanned.symm.trans scan
  obtain ⟨others, -, same⟩ := except_bind_ok.mp rest
  cases same
  cases outlining with
  | cons head rest =>
    cases outlined.symm.trans head
    cases parsing with
    | cons parse later =>
      obtain ⟨file, m, parses, makes, -⟩ := parsed (0, claimed)
      cases parses.symm.trans parse
      exact ⟨_, List.mem_cons_self, makes⟩

theorem interfaces_entered {options : Options} {given : List Source} {files : List File} {entered : Catalog}
    (wanted : options.prelude = true) (read : readSources options given = .ok (files, entered)) :
    ∀ interface ∈ interfaces, interface.Entered entered := by
  obtain ⟨file, member, makes⟩ := file_made wanted read
  exact Interface.entered_each (readSources_listed read).2 makes fun decl found =>
    List.mem_flatMap.mpr ⟨file, member, found⟩

theorem libraries_stored (container : Container) :
    .global (.named container.library) container.name ∈ interfaces := by
  cases container <;> decide +kernel

-- Every operation is a field of its library. The only one that takes a comparator is `sort`.
theorem operations_declared : ∀ op ∈ ContainerOp.all, ∃ interface ∈ interfaces,
    interface.owner = .struct ∧ interface.name = op.container.library ∧
      (interface.layout.lookup op.method).isSome = true ∧
      (.comparator ∈ op.arguments → op.arguments = [.container, .comparator] ∧
        interface.layout.lookup op.method = some (.named "ArraySort")) := by
  decide +kernel

section Entered

variable {entered : Catalog} (declared : ∀ interface ∈ interfaces, interface.Entered entered)
include declared

theorem sort_compares :
    Compares entered ((entered.delegate? (.named "ArraySort")).elim [] Signature.parameters)[1]? := by
  have sort := declared (.delegate .void "ArraySort" [(.object, "items"), (.named "Comparator", "comparator")])
    (by decide +kernel)
  have comparator := declared (.delegate .num "Comparator" [(.object, "left"), (.object, "right")]) (by decide +kernel)
  refine ⟨.named "Comparator", .object, .object, ?_, comparator⟩
  rw [show entered.delegate? (.named "ArraySort") = _ from sort]
  rfl

theorem operation_field {op : ContainerOp} (listed : op ∈ ContainerOp.all) :
    ∃ fields type, entered.struct? (.named op.container.library) = some fields ∧
      fields.lookup op.method = some type ∧ op.Comparable entered type := by
  obtain ⟨interface, member, owner, name, found, sorts⟩ := operations_declared op listed
  obtain ⟨type, field⟩ := Option.isSome_iff_exists.mp found
  have made := declared interface member
  cases interface with
  | delegate | global => cases owner
  | struct library fields =>
    cases name
    refine ⟨_, type, made, field, fun i role => ?_⟩
    obtain ⟨arguments, sort⟩ := sorts (List.mem_of_getElem? role)
    cases field.symm.trans sort
    rw [arguments] at role
    rcases i with _ | _ | i
    · cases role
    · exact sort_compares declared
    · cases role

theorem callee_passes {env : Vectors} {s : State} (rooted : Rooted entered s) {op : ContainerOp}
    (listed : op ∈ ContainerOp.all) (node object : Node) :
    ∃ type m, checkExpr (op.written node object) env s = .ok type m ∧
      containerOp? m.catalog (op.written node object) = some op ∧ op.Comparable entered type := by
  obtain ⟨owner, root⟩ := declared _ (libraries_stored op.container)
  obtain ⟨fields, type, struct, field, comparable⟩ := operation_field declared listed
  have bound : s.scopes.get? op.container.name = some (.named op.container.library) :=
    (rooted.owned _ _ owner).trans root
  have named : checkExpr (.name object op.container.name) env s =
      .ok (.named op.container.library) (s.recorded object (.named op.container.library)) := by
    simp only [checkExpr]
    rw [bind_of_ok (variableType_ok.mpr ⟨bound, rfl⟩)]
    rfl
  have after := rooted.evaluated named
  have member : memberType entered (.name object op.container.name) (.named op.container.library) op.method =
      .ok type := by
    have plain : namesEnum entered (.name object op.container.name) = false := by
      simp [namesEnum, Expr.bareName?, owner]
    simp [memberType, fieldType, plain, struct, field]
  have meant : containerOp? entered (op.written node object) = some op :=
    containerOp?_eq_some.mpr ⟨listed, owner, node, object, rfl⟩
  rw [after.shape.memberType] at member
  have passes : checkExpr (op.written node object) env s =
      .ok type ((s.recorded object (.named op.container.library)).recorded node type) := by
    rw [ContainerOp.written, checkExpr, bind_of_ok named, catalog_bind, bind_of_ok (requireAt_ok.mpr ⟨member, rfl⟩)]
    rfl
  rw [(rooted.evaluated passes).shape.containerOp?] at meant
  exact ⟨type, _, passes, meant, comparable⟩

end Entered

end Prelude

-- In the body of a function of a program with the prelude, the callee of an operation on containers passes, and once
-- the arguments have their types, the call is accepted by the rule of the operation alone. What it records is the
-- result that the rule states.
theorem containerCalls_typed {options : Options} {given : List Source} {files : List File} {entered : Catalog}
    (wanted : options.prelude = true) (read : readSources options given = .ok (files, entered)) {s : State}
    (inside : InBody options.vectors entered s) {op : ContainerOp} (listed : op ∈ ContainerOp.all)
    (node callee object : Node) (arguments : List Expr) :
    ∃ calleeType m, checkExpr (op.written callee object) options.vectors s = .ok calleeType m ∧
      ∀ types t, checkAll arguments options.vectors m = .ok types t → ∀ type last,
        checkExpr (.call node (op.written callee object) arguments) options.vectors s = .ok type last ↔
          op.Typed entered types type ∧ last = t.recorded node type := by
  have declared := Prelude.interfaces_entered wanted read
  have rooted := inside.rooted
  obtain ⟨calleeType, m, passes, meant, comparable⟩ := Prelude.callee_passes declared rooted listed callee object
  refine ⟨calleeType, m, passes, fun types t between type last => ?_⟩
  have after := (rooted.evaluated passes).still (checkAll_runs Manner.still_admits arguments) between
  have apart : t.catalog.BuiltinsApart := by
    unfold Catalog.BuiltinsApart
    rw [← after.shape.delegates]
    exact readSources_apart read
  rw [checkExpr_operation passes meant between apart (after.shape.comparable comparable), after.shape.typed]

theorem Prelude.read_alone : ∃ files entered, readSources .standard [] = .ok (files, entered) := by
  obtain ⟨tokens, entries, named, scanned, outlined, -, parsed⟩ := accepted
  obtain ⟨file, ⟨next, entered⟩, parses, -, -⟩ := parsed (0, named)
  refine ⟨[file], entered, ?_⟩
  have scans : (Options.standard.sources []).mapM Source.scan = .ok [tokens] := by
    show List.mapM Source.scan [⟨path, text⟩] = _
    rw [List.mapM_cons, scanned]
    rfl
  have outlines : mapState outlineFile [tokens] Catalog.initial = .ok ([entries], named) := by
    rw [mapState, outlined]
    rfl
  have parsing : mapState parseFile ([tokens].zip [entries]) (0, named) = .ok ([file], next, entered) := by
    show mapState parseFile [(tokens, entries)] (0, named) = _
    rw [mapState, parses]
    rfl
  unfold readSources
  rw [scans]
  show (mapState outlineFile [tokens] Catalog.initial >>= _) = _
  rw [outlines]
  show (mapState parseFile ([tokens].zip [entries]) (0, named) >>= _) = _
  rw [parsing]
  rfl

def spot : Node := ⟨0, ⟨.first "f", .first "f"⟩⟩

def noNumbers : Expr := .construct spot (.array .num) []

def noFlags : Expr := .construct spot (.map .num .bool) []

def keysOp : ContainerOp := ⟨.map, "keys", [.container], .keys⟩

def sortOp : ContainerOp := ⟨.array, "sort", [.container, .comparator], .void⟩

def pushOp : ContainerOp := ⟨.array, "push", [.container, .element], .void⟩

-- `map.keys(new bool[num]())` and `array.sort(new num[](), null)` pass, and `array.push(new num[](), true)` does not.
theorem containerCalls_typed_alone :
    ∃ files entered, readSources .standard [] = .ok (files, entered) ∧
      let s := ((State.start entered).framed (some ⟨"f", .void, false⟩)).pushed
      let call (op : ContainerOp) (arguments : List Expr) :=
        checkExpr (.call spot (op.written spot spot) arguments) Prelude.vectors s
      (∃ last, call keysOp [noFlags] = .ok (.array .num) last) ∧
      (∃ last, call sortOp [noNumbers, .literal spot .null] = .ok .void last) ∧
      ∀ type last, call pushOp [noNumbers, .literal spot (.bool true)] ≠ .ok type last := by
  obtain ⟨files, entered, read⟩ := Prelude.read_alone
  refine ⟨files, entered, read, ?_⟩
  intro s call
  have inside : InBody Options.standard.vectors entered s := @InBody.enter _ _ _ [] "f" .void rfl
  have rule {op : ContainerOp} (listed : op ∈ ContainerOp.all) (arguments : List Expr) :=
    containerCalls_typed rfl read inside listed spot spot spot arguments
  refine ⟨?_, ?_, ?_⟩
  · have listed : keysOp ∈ ContainerOp.all := by decide
    obtain ⟨_, m, -, accepts⟩ := rule listed [noFlags]
    exact ⟨_, (accepts _ _ rfl _ _).mpr ⟨.mk (.map _ _) (.cons (.container _) .nil) (.keys _ _), rfl⟩⟩
  · have listed : sortOp ∈ ContainerOp.all := by decide
    obtain ⟨_, m, -, accepts⟩ := rule listed [noNumbers, .literal spot .null]
    have suit : List.Forall₂ (Suits entered (.array .num)) sortOp.arguments [.array .num, .null] :=
      .cons (.container _) (.cons (.unordered _) .nil)
    exact ⟨_, (accepts _ _ rfl _ _).mpr ⟨.mk (.array _) suit (.void _), rfl⟩⟩
  · have listed : pushOp ∈ ContainerOp.all := by decide
    obtain ⟨_, m, -, accepts⟩ := rule listed [noNumbers, .literal spot (.bool true)]
    intro type last ran
    obtain ⟨⟨-, suit, -⟩, -⟩ := (accepts _ _ rfl type last).mp ran
    obtain ⟨element, -⟩ := List.forall₂_cons.mp (List.forall₂_cons.mp suit).2
    have flag : Ty.bool = .num := (accepts_num (readSources_apart read)).mp (suits_element.mp element)
    exact absurd flag (by decide)

end TypedScript
