/- Variants of an id: whichever of them opens a file, the id in its name opens the same config. -/

import WorkflowGraph.Proofs.Listing

set_option autoImplicit false
set_option relaxedAutoImplicit false

/-!
A document that sets no id gets the one in the name of its file, and this is the variant that the
search has come to. The search for the variant itself starts with it, and so ends at the same file.
After one step from any spelling of an id there is thus nothing left to resolve.
-/

namespace WorkflowGraph

namespace Store

variable {s : Store} {p : Path} {c : Config}

theorem held_eq_ok_iff : s.held p = .ok c ↔ ∃ d, s.configFile p = .ok d ∧
    c = (if d.id = "" then { d with id := p.configId?.getD "" } else d) ∧ c.validate = .ok () := by
  rw [held, configFile]
  cases s.text p with
  | error e => simp [Except.bind, bind]
  | ok text =>
    simp only [Except.bind, bind, configOfText]
    cases Config.parse text (Notation.ofPath p) with
    | error e => simp
    | ok d =>
      simp only [Except.ok.injEq, exists_eq_left']
      cases valid : Config.validate
          (if d.id = "" then { d with id := p.configId?.getD "" } else d) with
      | error flaw =>
        refine iff_of_false (by simp) ?_
        rintro ⟨rfl, accepted⟩
        cases valid.symm.trans accepted
      | ok u =>
        constructor
        · intro same
          obtain rfl := Except.ok.inj same
          exact ⟨rfl, valid⟩
        · rintro ⟨rfl, -⟩
          rfl

end Store

namespace Loader

/-- A config that is loaded under some id is that of the document in the file found for it. Where
this document sets no id of its own, the config gets a variant of the id asked for, and under this
variant every loader of the store finds the same file and loads the same config. -/
theorem alias_leads_to_own_id {s : Store} {configsDir templatesDir dir : Path} {l l' : Loader}
    {id : String} {c : Config} (before : Faithful s configsDir templatesDir l)
    (loaded : (l.loadFrom s dir id).1 = .ok c) (after : Faithful s configsDir templatesDir l') :
    ∃ p d, s.configFile? dir id = some p ∧ s.configFile p = .ok d ∧ c = { d with id := c.id } ∧
      (d.id ≠ "" → c.id = d.id) ∧
      (d.id = "" → c.id ∈ candidateNames id ∧ s.configFile? dir c.id = some p ∧
        (l'.loadFrom s dir c.id).1 = .ok c) := by
  rw [(gives_loadFrom dir id l before).1] at loaded
  obtain ⟨p, place, holds⟩ := Store.config_eq_ok_iff.mp loaded
  obtain ⟨n, variant, named, again⟩ := Store.exists_variant_of_configFile? place
  obtain ⟨d, document, rfl, -⟩ := Store.held_eq_ok_iff.mp holds
  refine ⟨p, d, place, document, ?_, fun set => by rw [if_neg set], fun unset => ?_⟩
  · split <;> rfl
  · rw [if_pos unset, named, Option.getD_some] at holds ⊢
    have own : s.config dir n = .ok { d with id := n } :=
      Store.config_eq_ok_iff.mpr ⟨p, again, holds⟩
    exact ⟨variant, again, (gives_loadFrom dir n l' after).1.trans own⟩

/-- Asked for in capitals and with a dash, a workflow is found under its small letters and
underscore, and by these it is loaded from the same file. -/
theorem spelt_otherwise_loaded : ∃ c,
    (shelfLoader.loadFrom (shelfStore "a_b" "") shelf "A-B").1 = .ok c ∧
      c.id ∈ candidateNames "A-B" ∧
      (shelfStore "a_b" "").configFile? shelf c.id = some (fileOn "a_b") ∧
      ((shelfLoader.loadFrom (shelfStore "a_b" "") shelf "A-B").2.loadFrom (shelfStore "a_b" "")
        shelf c.id).1 = .ok c := by
  have file : (shelfStore "a_b" "").configFile? shelf "A-B" = some (fileOn "a_b") := by
    decide +kernel
  have document : ((shelfStore "a_b" "").configFile (fileOn "a_b")).toOption.any (fun d =>
      d.id = "" ∧ { d with id := "a_b" }.validate.toBool = true) = true := by decide +kernel
  have fresh_ : Faithful (shelfStore "a_b" "") shelf shelf shelfLoader := faithful_fresh _ _ _ _
  have first := gives_loadFrom shelf "A-B" shelfLoader fresh_
  cases read_ : (shelfStore "a_b" "").configFile (fileOn "a_b") with
  | error e =>
    rw [read_] at document
    exact nomatch document
  | ok d =>
    rw [read_] at document
    obtain ⟨unset, valid⟩ := of_decide_eq_true document
    have named : (fileOn "a_b").configId? = some "a_b" :=
      configId?_child (by decide) (by decide) shelf
    have held : (shelfStore "a_b" "").held (fileOn "a_b") = .ok { d with id := "a_b" } := by
      refine Store.held_eq_ok_iff.mpr ⟨d, read_, by rw [if_pos unset, named]; rfl, ?_⟩
      cases accepted : Config.validate { d with id := "a_b" } with
      | error flaw => exact nomatch accepted ▸ valid
      | ok u => rfl
    have loaded := first.1.trans (Store.config_eq_ok_iff.mpr ⟨_, file, held⟩)
    obtain ⟨p, d', place, document', -, -, own⟩ := alias_leads_to_own_id fresh_ loaded first.2
    obtain rfl : p = fileOn "a_b" := Option.some.inj (place.symm.trans file)
    obtain rfl : d' = d := Except.ok.inj (document'.symm.trans read_)
    exact ⟨_, loaded, own unset⟩

end Loader

end WorkflowGraph
