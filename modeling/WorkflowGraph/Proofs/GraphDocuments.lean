/- Documents of graphs: what is written of a graph that was read, and that it reads as the graph. -/

import WorkflowGraph.Proofs.Frame
import WorkflowGraph.Proofs.NodeDocuments

set_option autoImplicit false
set_option relaxedAutoImplicit false

/-!
A graph that was read is written as its document in the settled form. What is written of any graph
whose extras stand under foreign names reads as that graph; actions do not touch extras, so this
goes for every graph that they make of a template.
-/

namespace WorkflowGraph

namespace Canvas

/-- The members of a canvas's document beside the extras, with the nodes as they are given. -/
def known (nodes links : List Value) : Object := [("nodes", .arr nodes), ("links", .arr links)]

private theorem toValue_eq (c : Canvas) :
    c.toValue = .obj (known (c.nodes.map Node.toValue) c.links ++ c.extra) := rfl

/-- What reading a canvas says of its document. -/
structure ReadFrom (c : Canvas) (doc : Object) : Prop where
  nodes : nodesSlot.require doc = .ok c.nodes
  links : linksSlot.orElse [] doc = .ok c.links
  extra : c.extra = doc.filter fun p => p.1 ∉ names

private theorem readFrom_of_read {v : Value} {c : Canvas} (h : read v = .ok c) :
    ∃ doc, v = .obj doc ∧ c.ReadFrom doc := by
  obtain ⟨doc, rfl, made⟩ := Record.exists_of_open h
  obtain ⟨nodes, hnodes, made⟩ := Record.bind_eq_ok made
  obtain ⟨links, hlinks, made⟩ := Record.bind_eq_ok made
  cases made
  exact ⟨doc, rfl, hnodes, hlinks, rfl⟩

/-- The extras of a canvas and of its nodes stand under foreign names. -/
def Writable (c : Canvas) : Prop :=
  Record.Extras names c.extra ∧ ∀ n ∈ c.nodes, Record.Extras Node.names n.extra

private theorem read_toValue {c : Canvas} (h : c.Writable) : read c.toValue = .ok c := by
  obtain ⟨extras, nodes⟩ := h
  rw [toValue_eq]
  set doc := known (c.nodes.map Node.toValue) c.links with written
  have find : ∀ k ∈ names, Assoc.get? k (doc ++ c.extra) = Assoc.get? k doc :=
    fun k hk => extras.get?_append_of_mem hk
  have sub : (Assoc.keys doc).Sublist names := .refl names
  have whole : { c with extra := (doc ++ c.extra).filter fun p => p.1 ∉ names } = c := by
    rw [extras.filter_append sub]
  exact Record.Assembles.open_eq_ok (extras.nodup_append sub (by decide)) <|
    .take (.require (find "nodes" (by decide))
      (Record.items_map fun n hn => Node.read_toValue (nodes n hn))) <|
    .take (.orElse (find "links" (by decide)) (Record.items_any c.links)) <|
    .rest (congrArg Except.ok whole)

def settledNodes : Value → Value
  | .arr vs => .arr (vs.map Node.settled)
  | v => v

def settledMember (name : String) (v : Value) : Option Value :=
  some (if name = "nodes" then settledNodes v else v)

def defaults : Object := [("links", .arr [])]

def settled : Value → Value
  | .obj doc => .obj (Record.settle settledMember defaults doc)
  | v => v

private theorem settledMember_of_not_mem {k : String} (hk : k ∉ names) (v : Value) :
    settledMember k v = some v := by
  have other : k ≠ "nodes" := by
    rintro rfl
    exact hk (by decide)
  rw [settledMember, if_neg other]

private theorem ReadFrom.exists_nodes {c : Canvas} {doc : Object} (h : c.ReadFrom doc) :
    ∃ vs, Assoc.get? "nodes" doc = some (.arr vs) ∧
      List.Forall₂ (fun v n => Node.read v = .ok n) vs c.nodes := by
  obtain ⟨v, there, hv⟩ := Record.get?_of_require h.nodes
  obtain ⟨vs, rfl, hvs⟩ := Record.exists_of_list hv
  exact ⟨vs, there, Record.forall₂_of_items hvs⟩

private theorem ReadFrom.exists_distinct_nodes {c : Canvas} {doc : Object} (h : c.ReadFrom doc)
    (distinct : Value.DistinctMembers doc) :
    ∃ vs, Assoc.get? "nodes" doc = some (.arr vs) ∧
      List.Forall₂ (fun v n => v.Distinct ∧ Node.read v = .ok n) vs c.nodes := by
  obtain ⟨vs, there, read_⟩ := h.exists_nodes
  have items : Value.DistinctItems vs :=
    Value.distinct_of_mem_members distinct (Assoc.mem_of_get? there)
  have each : ∀ v ∈ vs, v.Distinct := fun v hv => Value.distinct_of_mem_items items hv
  exact ⟨vs, there, (List.forall₂_and_left vs _).mpr ⟨each, read_⟩⟩

private theorem ReadFrom.get?_known {c : Canvas} {doc : Object} (h : c.ReadFrom doc)
    (nodup : (Assoc.keys doc).Nodup) {vs : List Value}
    (nodes : Assoc.get? "nodes" doc = some (.arr vs)) {k : String} (hk : k ∈ names) :
    Assoc.get? k (known (vs.map Node.settled) c.links) =
      Assoc.get? k (Record.settle settledMember defaults doc) := by
  have named : k = "nodes" ∨ k = "links" := by simpa [names] using hk
  rw [Record.get?_settle nodup]
  rcases named with rfl | rfl
  · rw [nodes]
    rfl
  · rcases Record.get?_of_orElse h.links with ⟨absent, empty⟩ | ⟨v, there, hv⟩
    · rw [absent, known, empty]
      rfl
    · obtain ⟨links, rfl, hlinks⟩ := Record.exists_of_list hv
      obtain rfl : links = c.links := Except.ok.inj ((Record.items_any links).symm.trans hlinks)
      rw [there]
      rfl

private theorem alike_settled {v : Value} {c : Canvas} (h : read v = .ok c)
    (distinct : v.Distinct) :
    c.toValue.Alike (settled v) := by
  obtain ⟨doc, rfl, made⟩ := readFrom_of_read h
  obtain ⟨vs, nodes, read_⟩ := made.exists_distinct_nodes distinct.2
  have nodup : (Assoc.keys doc).Nodup := distinct.1
  have alike : Value.Alike (.arr (c.nodes.map Node.toValue)) (.arr (vs.map Node.settled)) :=
    .arr (.map (read_.imp fun _ _ h => Node.alike_settled h.2 h.1))
  rw [toValue_eq, settled, made.extra]
  -- the nodes are settled in their places, then the members of the canvas are put in order
  refine .obj (m := known (vs.map Node.settled) c.links ++ doc.filter fun p => p.1 ∉ names)
    (.cons alike (.refl _)) ?_
  exact Record.Extras.perm_settle nodup (by decide) (.refl names) (by decide)
    (fun k hk => made.get?_known nodup nodes hk) fun k hk => settledMember_of_not_mem hk

private theorem writable_of_read {v : Value} {c : Canvas} (h : read v = .ok c)
    (distinct : v.Distinct) :
    c.Writable := by
  obtain ⟨doc, rfl, made⟩ := readFrom_of_read h
  obtain ⟨vs, -, read_⟩ := made.exists_distinct_nodes distinct.2
  refine ⟨made.extra ▸ .filter distinct.1, fun n hn => ?_⟩
  obtain ⟨v, -, distinctNode, hread⟩ := exists_of_mem_right read_ hn
  exact Node.extras_of_read hread distinctNode

end Canvas

namespace ApiGraph

private theorem exists_of_read {v : Value} {g : ApiGraph} (h : read v = .ok g) :
    ∃ doc, v = .obj doc ∧
      List.Forall₂ (fun m p => m.1 = p.1 ∧ ApiNode.read m.2 = .ok p.2) doc g.nodes := by
  cases v with
  | obj doc =>
    obtain ⟨nodes, hnodes, rfl⟩ := Record.map_eq_ok h
    exact ⟨doc, rfl, Record.forall₂_of_entries hnodes⟩
  | _ => exact nomatch h

def Writable (g : ApiGraph) : Prop := ∀ p ∈ g.nodes, Record.Extras ApiNode.names p.2.extra

private theorem read_toValue {g : ApiGraph} (h : g.Writable) : read g.toValue = .ok g := by
  have nodes : Record.entries ApiNode.read (g.nodes.map fun p => (p.1, p.2.toValue)) =
      .ok g.nodes := Record.entries_map fun p hp => ApiNode.read_toValue (h p hp)
  change (Record.entries ApiNode.read (g.nodes.map fun p => (p.1, p.2.toValue))).map mk = .ok g
  rw [nodes]
  rfl

def settled : Value → Value
  | .obj doc => .obj (doc.map fun m => (m.1, ApiNode.settled m.2))
  | v => v

private theorem alike_settled {v : Value} {g : ApiGraph} (h : read v = .ok g)
    (distinct : v.Distinct) :
    g.toValue.Alike (settled v) := by
  obtain ⟨doc, rfl, read_⟩ := exists_of_read h
  have both := (List.forall₂_and_left doc _).mpr
    ⟨fun m hm => Value.distinct_of_mem_members distinct.2 hm, read_⟩
  refine .obj (.map (both.imp ?_)) (.refl _)
  intro m p h
  exact ⟨h.2.1, ApiNode.alike_settled h.2.2 h.1⟩

private theorem writable_of_read {v : Value} {g : ApiGraph} (h : read v = .ok g)
    (distinct : v.Distinct) : g.Writable := by
  obtain ⟨doc, rfl, read_⟩ := exists_of_read h
  intro p hp
  obtain ⟨m, hm, -, hread⟩ := exists_of_mem_right read_ hp
  exact ApiNode.extras_of_read hread (Value.distinct_of_mem_members distinct.2 hm)

end ApiGraph

namespace Graph

def settled (v : Value) : Value :=
  match v with
  | .obj doc => if isCanvasDocument doc then Canvas.settled v else ApiGraph.settled v
  | v => v

private theorem readFrom_of_read {v : Value} {g : Graph} (h : read v = .ok g) :
    ∃ doc, v = .obj doc ∧
    ((isCanvasDocument doc = true ∧ ∃ c, g = canvas c ∧ Canvas.read v = .ok c) ∨
      (isCanvasDocument doc = false ∧ ∃ a, g = api a ∧ ApiGraph.read v = .ok a)) := by
  cases v with
  | obj doc =>
    refine ⟨doc, rfl, ?_⟩
    rw [read] at h
    cases form : isCanvasDocument doc with
    | true =>
      rw [form, if_pos rfl] at h
      cases hc : Canvas.read (.obj doc) with
      | error fault =>
        rw [hc] at h
        exact nomatch h
      | ok c =>
        rw [hc] at h
        exact Or.inl ⟨rfl, c, (Except.ok.inj h).symm, rfl⟩
    | false =>
      rw [form, if_neg Bool.false_ne_true] at h
      cases ha : ApiGraph.read (.obj doc) with
      | error fault =>
        rw [ha] at h
        exact nomatch h
      | ok a =>
        rw [ha] at h
        exact Or.inr ⟨rfl, a, (Except.ok.inj h).symm, rfl⟩
  | _ => exact nomatch h

private theorem alike_settled {v : Value} {g : Graph} (h : read v = .ok g) (distinct : v.Distinct) :
    g.toValue.Alike (settled v) := by
  obtain ⟨doc, rfl, ⟨form, c, rfl, hc⟩ | ⟨form, a, rfl, ha⟩⟩ := readFrom_of_read h
  · rw [settled, form, if_pos rfl]
    exact Canvas.alike_settled hc distinct
  · rw [settled, form, if_neg Bool.false_ne_true]
    exact ApiGraph.alike_settled ha distinct

/-- A graph whose document reads as the graph: no extra stands under the name of a known member. -/
def Writable : Graph → Prop
  | canvas c => c.Writable
  | api g => g.Writable

private theorem writable_of_read {v : Value} {g : Graph} (h : read v = .ok g)
    (distinct : v.Distinct) :
    g.Writable := by
  obtain ⟨doc, rfl, ⟨-, c, rfl, hc⟩ | ⟨-, a, rfl, ha⟩⟩ := readFrom_of_read h
  · exact Canvas.writable_of_read hc distinct
  · exact ApiGraph.writable_of_read ha distinct

private theorem isCanvasDocument_keyed (nodes : List (String × ApiNode)) :
    isCanvasDocument (nodes.map fun p => (p.1, p.2.toValue)) = false := by
  rw [isCanvasDocument]
  cases there : Assoc.get? "nodes" (nodes.map fun p => (p.1, p.2.toValue)) with
  | none => rfl
  | some v =>
    obtain ⟨p, -, same⟩ := List.mem_map.mp (Assoc.mem_of_get? there)
    obtain rfl : p.2.toValue = v := congrArg Prod.snd same
    rfl

private theorem read_toValue {g : Graph} (h : g.Writable) : read g.toValue = .ok g := by
  cases g with
  | canvas c =>
    have form : isCanvasDocument (Canvas.known (c.nodes.map Node.toValue) c.links ++ c.extra) =
      true := rfl
    have back := Canvas.read_toValue h
    rw [toValue, Canvas.toValue_eq, read, form, if_pos rfl, ← Canvas.toValue_eq, back]
  | api g =>
    have back := ApiGraph.read_toValue h
    rw [toValue]
    rw [ApiGraph.toValue] at back ⊢
    rw [read, isCanvasDocument_keyed, if_neg Bool.false_ne_true, back]

private theorem Framed.writable {ids : List NodeId} {g h : Graph} (framed : g.Framed ids h)
    (writable : g.Writable) : h.Writable := by
  cases g with
  | canvas c =>
    cases h with
    | api a => exact framed.elim
    | canvas c' =>
      obtain ⟨nodes, -, extra⟩ := framed
      refine ⟨extra ▸ writable.1, fun n' hn' => ?_⟩
      obtain ⟨n, hn, same⟩ := exists_of_mem_right nodes hn'
      exact same.extra ▸ writable.2 n hn
  | api a =>
    cases h with
    | canvas c => exact framed.elim
    | api a' =>
      intro p' hp'
      obtain ⟨p, hp, same⟩ := exists_of_mem_right framed hp'
      exact same.extra ▸ writable p hp

/-- What a document says beside the known names: of the graph, and of every node, in order and by
its id or key. -/
def uninterpreted : Value → Object × List (Option Value × Object)
  | .obj doc => match Assoc.get? "nodes" doc with
    | some (.arr vs) =>
      (Record.foreign Canvas.names (.obj doc), vs.map Node.uninterpreted)
    | _ => ([], doc.map ApiNode.uninterpreted)
  | _ => ([], [])

def extras : Graph → Object × List (Option Value × Object)
  | canvas c => (c.extra, c.nodes.map fun n => (some n.id.toValue, n.extra))
  | api g => ([], g.nodes.map fun p => (some (.str p.1), p.2.extra))

private theorem uninterpreted_of_keyed {doc : Object} (form : isCanvasDocument doc = false) :
    uninterpreted (.obj doc) = ([], doc.map ApiNode.uninterpreted) := by
  unfold isCanvasDocument at form
  rw [uninterpreted]
  cases there : Assoc.get? "nodes" doc with
  | none => rfl
  | some v =>
    rw [there] at form
    cases v with
    | arr vs => exact nomatch form
    | _ => rfl

private theorem uninterpreted_of_read {v : Value} {g : Graph} (h : read v = .ok g) :
    uninterpreted v = g.extras := by
  obtain ⟨doc, rfl, ⟨-, c, rfl, hc⟩ | ⟨form, a, rfl, ha⟩⟩ := readFrom_of_read h
  · obtain ⟨_, same, made⟩ := Canvas.readFrom_of_read hc
    obtain rfl := Value.obj.inj same
    obtain ⟨vs, there, read_⟩ := made.exists_nodes
    have nodes := map_eq_map_of_forall₂ (read_.imp fun _ _ => Node.uninterpreted_of_read)
    rw [uninterpreted, there, extras, made.extra]
    exact congrArg (Prod.mk _) nodes
  · obtain ⟨_, same, read_⟩ := ApiGraph.exists_of_read ha
    obtain rfl := Value.obj.inj same
    have nodes : doc.map ApiNode.uninterpreted =
        a.nodes.map fun p => (some (.str p.1), p.2.extra) := by
      apply map_eq_map_of_forall₂
      exact read_.imp fun m p h => ApiNode.uninterpreted_of_read h.1 h.2
    rw [uninterpreted_of_keyed form]
    exact congrArg (Prod.mk []) nodes

private theorem Framed.extras {ids : List NodeId} {g h : Graph} (framed : g.Framed ids h) :
    h.extras = g.extras := by
  cases g with
  | canvas c =>
    cases h with
    | api a => exact framed.elim
    | canvas c' =>
      obtain ⟨nodes, -, extra⟩ := framed
      have same : c.nodes.map (fun n => (some n.id.toValue, n.extra)) =
          c'.nodes.map fun n => (some n.id.toValue, n.extra) := by
        apply map_eq_map_of_forall₂
        exact nodes.imp fun n n' h => by rw [h.id, h.extra]
      rw [Graph.extras, Graph.extras, same, extra]
  | api a =>
    cases h with
    | canvas c => exact framed.elim
    | api a' =>
      have same : a.nodes.map (fun p => (some (Value.str p.1), p.2.extra)) =
          a'.nodes.map fun p => (some (Value.str p.1), p.2.extra) := by
        apply map_eq_map_of_forall₂
        exact List.Forall₂.imp (fun p p' h => by rw [h.key, h.extra]) framed
      rw [Graph.extras, Graph.extras, same]

private theorem Framed.form {ids : List NodeId} {g h : Graph} (framed : g.Framed ids h) :
    h.form = g.form := by
  cases g <;> cases h <;> first | rfl | exact framed.elim

/-- A graph that was read is written as its document in the settled form, and whatever actions make
of it is written so that it reads as the same graph, with nothing lost that is not interpreted. They
make something of it unless they come to an entry for a node that has the largest word as a slot. -/
theorem reads_back {v : Value} {g : Graph} (distinct : v.Distinct) (h : read v = .ok g) :
    g.toValue.Alike (settled v) ∧ ∀ actions : List Action,
      (∀ result, g.applyAll actions = some result →
        read result.1.toValue = .ok result.1 ∧ result.1.form = g.form ∧
          uninterpreted result.1.toValue = uninterpreted v) ∧
      (g.applyAll actions = none ↔ g.RunsOut actions) := by
  refine ⟨alike_settled h distinct, fun actions => ⟨fun result made => ?_,
    g.applyAll_eq_none_iff actions⟩⟩
  obtain ⟨-, rfl⟩ := applyAll_eq_some_iff.mp made
  have targets : ∀ a ∈ actions, a.targets ⊆ actions.flatMap Action.targets :=
    fun a ha id hid => List.mem_flatMap.mpr ⟨a, ha, hid⟩
  have framed : g.Framed (actions.flatMap Action.targets) (g.run actions).1 :=
    framed_run targets g
  have back := read_toValue (framed.writable (writable_of_read h distinct))
  refine ⟨back, framed.form, ?_⟩
  rw [uninterpreted_of_read back, framed.extras, uninterpreted_of_read h]

/-- A sampler given by a text with blanks, without mode and links, and a saving node. -/
def sparseDocument : Value :=
  .obj [
    ("version", .num (.int 1 (by decide))),
    ("nodes", .arr [
      .obj [("pos", .arr [.ofNat 10, .ofNat 20]), ("type", .str "Sampler"), ("id", .str " 3 "),
        ("widgets_values", .null)],
      .obj [("id", .ofNat 40), ("type", .str "Save"), ("mode", .ofNat 4),
        ("widgets_values", .obj [("save_output", .bool true)]), ("properties", .null),
        ("flags", .obj [])]])]

def sparseCanvas : Canvas where
  nodes := [
    ⟨.small 3, "Sampler", .enabled, .null, none, [("pos", .arr [.ofNat 10, .ofNat 20])]⟩,
    ⟨.small 40, "Save", .muted, .obj [("save_output", .bool true)], none,
      [("flags", .obj [])]⟩]
  links := []
  extra := [("version", .ofNat 1)]

def muting : Action := .toggleMode ⟨[.small 3], false, .enabled, .muted, some (.small 40)⟩

theorem sparse_reads_back :
    read sparseDocument = .ok (canvas sparseCanvas) ∧
      (canvas sparseCanvas).toValue.Alike (settled sparseDocument) ∧
      ∃ result, (canvas sparseCanvas).applyAll [muting] = some result ∧
        read result.1.toValue = .ok result.1 := by
  have distinct : sparseDocument.Distinct := by
    simp [sparseDocument, Value.Distinct, Value.DistinctItems, Value.DistinctMembers, Value.ofNat,
      Value.ofInt, FitsNumber]
  have read_ : read sparseDocument = .ok (canvas sparseCanvas) := by rfl
  obtain ⟨alike, back⟩ := reads_back distinct read_
  have made := applyAll_canvas sparseCanvas [muting]
  exact ⟨read_, alike, _, made, ((back [muting]).1 _ made).1⟩

end Graph

end WorkflowGraph
