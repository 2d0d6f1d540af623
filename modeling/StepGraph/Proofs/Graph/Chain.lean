import Mathlib.Data.List.Nodup
import Mathlib.Data.List.Perm.Subperm
import StepGraph.Proofs.Graph.Nesting

/-!
# Chains of bodies

Which bodies can be inside each other while a graph is run that needs no template. As a rule a body
is one level deeper than the graph around it, and the levels of the deepest body make up the nesting
of the graph. The exception are bodies that may read from the context of their caller. One that
looks there for a step has that step run while it waits, and a body of that step is then one level
deeper than the one that looks for it, wherever it stands.

So the bodies that are inside each other make up a chain, in which each one is either that of a step
of the one before or demanded by a path there. A path demands what the step does that it starts
from, unless that step has begun, and beyond that what is left of it demands in the caller, unless
the body was given that input. Where no path demands a body further out, no chain is longer than
the nesting. For other graphs there are ranks: what is searched for is listed with each site, and
if the rank falls with each body that a search has run, it bounds the chains.
-/
namespace StepGraph

namespace Step

/-- Whether the step needs no template: it defines none, and what it runs is given in place. -/
def isSelfContained : Step → Bool
  | .action _ _ => true
  | .graph _ invocation body => body.isInline && !invocation.definesTemplate body

/-- Whether the step is about another graph. -/
def hasBody : Step → Bool
  | .action _ _ => false
  | .graph _ _ _ => true

mutual
/-- The number of levels that the body of a step has, itself and the bodies inside it. -/
def levels : Step → Nat
  | .graph _ _ (.inline steps) => levelsOfAll steps + 1
  | .graph _ _ (.template _) => 0
  | .action _ _ => 0

/-- The number of levels of the deepest body in a list of steps. -/
def levelsOfAll : List Step → Nat
  | [] => 0
  | step :: rest => max (levels step) (levelsOfAll rest)
end

/-- No step has more levels than the list it stands in. -/
theorem levels_le_levelsOfAll {steps : List Step} {step : Step} (member : step ∈ steps) :
    step.levels ≤ levelsOfAll steps := by
  induction steps with
  | nil => cases member
  | cons first rest ih =>
    rw [levelsOfAll]
    rcases List.mem_cons.mp member with rfl | later
    · exact Nat.le_max_left _ _
    · exact Nat.le_trans (ih later) (Nat.le_max_right _ _)

/-- Some step of a list has as many levels as the list. -/
theorem exists_of_levelsOfAll_eq {steps : List Step} {n : Nat}
    (levels : levelsOfAll steps = n + 1) : ∃ header invocation body,
      .graph header invocation (.inline body) ∈ steps ∧ levelsOfAll body = n := by
  induction steps with
  | nil => cases levels
  | cons first rest ih =>
    rw [levelsOfAll] at levels
    by_cases later : levelsOfAll rest = n + 1
    · obtain ⟨header, invocation, body, member, deepest⟩ := ih later
      exact ⟨header, invocation, body, List.mem_cons_of_mem _ member, deepest⟩
    · have deepest : first.levels = n + 1 := by omega
      match first, deepest with
      | .graph header invocation (.inline body), deepest =>
        exact ⟨header, invocation, body, List.mem_cons_self, Nat.succ.inj deepest⟩

/-- Whether the body of the step is sure to find something at a path: an input that the step gives
by name, where no step of the body takes the place of the inputs. -/
def gives : Step → String → Bool
  | .graph _ invocation (.inline steps), path =>
    (Graph.findStep? steps inputsKey).isNone &&
      match invocation.inputs with
      | some (.object entries) =>
        (Dictionary.keys entries).any fun key => Path.segments path == [inputsKey, key]
      | _ => false
  | _, _ => false

end Step

/-- Where a body stands in a graph: the name of its step and the names of those whose bodies are
around it, from the inside out. The graph itself stands outside of all. -/
abbrev Site := List String

namespace Step

mutual
/-- The bodies in a step of a graph at a site, each with its own site. -/
def places (around : Site) : Step → List (Site × Graph)
  | .graph header _ (.inline steps) =>
    (header.name :: around, steps) :: placesOfAll (header.name :: around) steps
  | .graph _ _ (.template _) => []
  | .action _ _ => []

/-- The bodies in a list of steps, each with its own site. -/
def placesOfAll (around : Site) : List Step → List (Site × Graph)
  | [] => []
  | step :: rest => places around step ++ placesOfAll around rest
end

/-- A body in a list of steps is that of one of them or in there. -/
theorem mem_placesOfAll {around : Site} {steps : List Step} {place : Site × Graph} :
    place ∈ placesOfAll around steps ↔ ∃ header invocation body,
      .graph header invocation (.inline body) ∈ steps ∧
        (place = (header.name :: around, body) ∨
          place ∈ placesOfAll (header.name :: around) body) := by
  induction steps with
  | nil => simp [placesOfAll]
  | cons first rest ih =>
    rw [placesOfAll, List.mem_append, ih]
    match first with
    | .action header work => simp [places]
    | .graph header invocation (.template name) => simp [places]
    | .graph header invocation (.inline body) =>
      simp only [places, List.mem_cons, graph.injEq, Body.inline.injEq, or_and_right, exists_or]
      simp

/-- The body of a step is in the list of the step. -/
theorem body_mem_placesOfAll {around : Site} {steps : List Step} {body : Graph} {header : Header}
    {invocation : Invocation} (member : .graph header invocation (.inline body) ∈ steps) :
    (header.name :: around, body) ∈ placesOfAll around steps :=
  mem_placesOfAll.mpr ⟨header, invocation, body, member, .inl rfl⟩

/-- With a body in a list of steps the bodies of its steps are in the list. -/
theorem mem_placesOfAll_of_body {around site : Site} {steps : List Step} {graph body : Graph}
    {header : Header} {invocation : Invocation} (place : (site, graph) ∈ placesOfAll around steps)
    (member : .graph header invocation (.inline body) ∈ graph) :
    (header.name :: site, body) ∈ placesOfAll around steps := by
  obtain ⟨outer, call, inner, outer_mem, here | deeper⟩ := mem_placesOfAll.mp place
  · obtain ⟨rfl, rfl⟩ := Prod.mk.inj here
    exact mem_placesOfAll.mpr ⟨outer, call, graph, outer_mem, .inr (body_mem_placesOfAll member)⟩
  · have smaller := size_le_sizeOfAll outer_mem
    rw [size] at smaller
    have inside := mem_placesOfAll_of_body deeper member
    exact mem_placesOfAll.mpr ⟨outer, call, inner, outer_mem, .inr inside⟩
termination_by sizeOfAll steps

end Step

namespace Graph

/-- The graph and all bodies inside it, each with its site. -/
def places (graph : Graph) : List (Site × Graph) := ([], graph) :: Step.placesOfAll [] graph

/-- How many graphs are inside each other: one, and as many more as in the deepest body. -/
def nesting (graph : Graph) : Nat := Step.levelsOfAll graph + 1

/-- The graph and those inside it need no template. -/
def IsSelfContained (graph : Graph) : Prop :=
  Everywhere (fun step => step.isSelfContained = true) graph

instance (graph : Graph) : Decidable graph.IsSelfContained :=
  inferInstanceAs (Decidable (Everywhere _ graph))

/-- What stands at a site of a graph. -/
inductive Holds (root : Graph) : Site → Graph → Prop where
  /-- The graph itself. -/
  | self : Holds root [] root
  /-- The body of a step. -/
  | body {site : Site} {graph steps : Graph} {header : Header} {invocation : Invocation}
      (around : Holds root site graph)
      (member : .graph header invocation (.inline steps) ∈ graph) :
      Holds root (header.name :: site) steps

/-- A step of a graph at a site has begun by the time the last body of a chain is run: its own body
is in the chain, or it is named by a path of a step whose body is. -/
def HasBegun (graph : Graph) (chain : List Site) (site : Site) (step : Step) : Prop :=
  step.name :: site ∈ chain ∨
    ∃ waiting ∈ graph, waiting.name :: site ∈ chain ∧
      ∃ path ∈ waiting.paths, Path.head path ≠ inputsKey ∧ Path.head path ∈ step.keys

/-- While the bodies of a chain wait, looking for a path at a site may have the body at another one
run. -/
inductive Demands (root : Graph) (chain : List Site) : Site → String → Site → Prop where
  /-- The path starts from the step of the body. -/
  | body {site : Site} {graph steps : Graph} {path : String} {header : Header}
      {invocation : Invocation} (held : root.Holds site graph)
      (found : findStep? graph (Path.head path) = some (.graph header invocation (.inline steps)))
      (fresh : ¬graph.HasBegun chain site (.graph header invocation (.inline steps))) :
      Demands root chain site path (header.name :: site)
  /-- The path starts from a step with a path that demands the body. -/
  | through {site target : Site} {graph : Graph} {path further : String} {step : Step}
      (held : root.Holds site graph) (found : findStep? graph (Path.head path) = some step)
      (fresh : ¬graph.HasBegun chain site step) (member : further ∈ step.paths)
      (demands : Demands root chain site further target) : Demands root chain site path target
  /-- The path leads into the inputs of a body, which was given none there, and what is left of it
  demands the body from the caller. -/
  | caller {site target : Site} {graph steps : Graph} {path rest : String} {header : Header}
      {invocation : Invocation} (held : root.Holds site graph)
      (member : .graph header invocation (.inline steps) ∈ graph)
      (namespaced : Step.isNamespaced (.graph header invocation (.inline steps)) = true)
      (missing : Step.gives (.graph header invocation (.inline steps)) path = false)
      (inside : insideInputs? path = some rest) (demands : Demands root chain site rest target) :
      Demands root chain (header.name :: site) path target

/-- Sites of bodies each of which may be run while the one before it is. -/
inductive Chain (root : Graph) : List Site → Prop where
  /-- The graph itself is run. -/
  | self : Chain root [[]]
  /-- The body of a step of the last one is run. -/
  | own {chain : List Site} {site : Site} {graph steps : Graph} {header : Header}
      {invocation : Invocation} (before : Chain root chain) (last : chain.getLast? = some site)
      (held : root.Holds site graph)
      (member : .graph header invocation (.inline steps) ∈ graph)
      (fresh : header.name :: site ∉ chain) : Chain root (chain ++ [header.name :: site])
  /-- A body is run that a path of a step of the last one demands. -/
  | demanded {chain : List Site} {site target : Site} {graph : Graph} {step : Step} {path : String}
      (before : Chain root chain) (last : chain.getLast? = some site)
      (held : root.Holds site graph) (member : step ∈ graph) (path_mem : path ∈ step.paths)
      (demands : root.Demands chain site path target) : Chain root (chain ++ [target])

/-- Whatever body the paths of a body demand is that of one of its own steps. -/
def IsInward (root : Graph) : Prop :=
  ∀ chain site graph step path target, root.Chain chain → chain.getLast? = some site →
    root.Holds site graph → step ∈ graph → path ∈ step.paths →
    root.Demands chain site path target → ∃ name, target = name :: site

variable {root graph : Graph} {chain : List Site} {site target : Site} {path : String}

/-- What a graph holds at a site is inside it. -/
theorem Holds.includes (held : root.Holds site graph) : root.Includes graph := by
  induction held with
  | self => exact .self
  | body _ member ih => exact .body ih member

/-- What is inside a graph is held by it at a site. -/
theorem Includes.exists_holds (inside : root.Includes graph) : ∃ site, root.Holds site graph := by
  induction inside with
  | self => exact ⟨[], .self⟩
  | body _ member ih =>
    obtain ⟨site, held⟩ := ih
    exact ⟨_, held.body member⟩

/-- What a graph holds is listed with its site. -/
theorem Holds.mem_places (held : root.Holds site graph) : (site, graph) ∈ root.places := by
  induction held with
  | self => exact List.mem_cons_self
  | body _ member ih =>
    rcases List.mem_cons.mp ih with here | deeper
    · obtain ⟨rfl, rfl⟩ := Prod.mk.inj here
      exact List.mem_cons_of_mem _ (Step.body_mem_placesOfAll member)
    · exact List.mem_cons_of_mem _ (Step.mem_placesOfAll_of_body deeper member)

/-- The levels of what is held add to those around it. -/
theorem Holds.length_add_levelsOfAll_le (held : root.Holds site graph) :
    site.length + Step.levelsOfAll graph ≤ Step.levelsOfAll root := by
  induction held with
  | self => simp
  | body _ member ih =>
    have deeper := Step.levels_le_levelsOfAll member
    rw [Step.levels] at deeper
    rw [List.length_cons]
    omega

/-- A body that is demanded stands somewhere. -/
theorem Demands.exists_holds (demands : root.Demands chain site path target) :
    ∃ graph, root.Holds target graph := by
  induction demands with
  | body held found _ => exact ⟨_, held.body (findStep?_eq_some found).1⟩
  | through _ _ _ _ _ ih => exact ih
  | caller _ _ _ _ _ _ ih => exact ih

/-- A body that is demanded is not in the chain. -/
theorem Demands.not_mem (demands : root.Demands chain site path target) : target ∉ chain := by
  induction demands with
  | body _ _ fresh => exact fun waits => fresh (.inl waits)
  | through _ _ _ _ _ ih => exact ih
  | caller _ _ _ _ _ _ ih => exact ih

namespace Chain

/-- Each body of a chain stands somewhere. -/
theorem exists_holds (chained : root.Chain chain) (member : site ∈ chain) :
    ∃ graph, root.Holds site graph := by
  induction chained with
  | self =>
    rw [List.mem_singleton.mp member]
    exact ⟨root, .self⟩
  | own _ _ held step_mem _ ih =>
    rcases List.mem_append.mp member with earlier | last
    · exact ih earlier
    · rw [List.mem_singleton.mp last]
      exact ⟨_, held.body step_mem⟩
  | demanded _ _ _ _ _ demands ih =>
    rcases List.mem_append.mp member with earlier | last
    · exact ih earlier
    · rw [List.mem_singleton.mp last]
      exact demands.exists_holds

/-- No body is in a chain twice. -/
theorem nodup (chained : root.Chain chain) : chain.Nodup := by
  induction chained with
  | self => exact List.nodup_singleton _
  | own _ _ _ _ fresh ih =>
    rw [← List.concat_eq_append]
    exact ih.concat fresh
  | demanded _ _ _ _ _ demands ih =>
    rw [← List.concat_eq_append]
    exact ih.concat demands.not_mem

/-- A chain is no longer than there are bodies, with the graph itself. -/
theorem length_le_places (chained : root.Chain chain) : chain.length ≤ root.places.length := by
  rw [← List.length_map Prod.fst]
  refine (chained.nodup.subperm fun site member => ?_).length_le
  obtain ⟨graph, held⟩ := chained.exists_holds member
  exact List.mem_map_of_mem held.mem_places

/-- A chain goes on with the bodies inside its last one. -/
theorem exists_deeper {n : Nat} (chained : root.Chain chain) (last : chain.getLast? = some site)
    (held : root.Holds site graph) (outside : ∀ other ∈ chain, other.length ≤ site.length)
    (levels : Step.levelsOfAll graph = n) :
    ∃ longer, root.Chain longer ∧ longer.length = chain.length + n := by
  induction n generalizing chain site graph with
  | zero => exact ⟨chain, chained, rfl⟩
  | succ n ih =>
    obtain ⟨header, invocation, body, member, deepest⟩ := Step.exists_of_levelsOfAll_eq levels
    have fresh : header.name :: site ∉ chain := fun waits =>
      absurd (outside _ waits) (by simp)
    have deeper (other : Site) (there : other ∈ chain ++ [header.name :: site]) :
        other.length ≤ (header.name :: site).length := by
      rcases List.mem_append.mp there with before | new
      · exact Nat.le_succ_of_le (outside other before)
      · exact Nat.le_of_eq (congrArg List.length (List.mem_singleton.mp new))
    obtain ⟨longer, chained', length⟩ := ih (.own chained last held member fresh)
      List.getLast?_concat (held.body member) deeper deepest
    refine ⟨longer, chained', ?_⟩
    rw [length, List.length_append, List.length_singleton]
    omega

/-- Ranks of the sites which fall with each body that comes next bound the length of a chain. -/
theorem length_le_of_falls (rank : Site → Nat)
    (own : ∀ {site graph steps header invocation}, root.Holds site graph →
      .graph header invocation (.inline steps) ∈ graph → rank (header.name :: site) < rank site)
    (demanded : ∀ {chain site graph step path target}, root.Chain chain →
      chain.getLast? = some site → root.Holds site graph → step ∈ graph → path ∈ step.paths →
        root.Demands chain site path target → rank target < rank site)
    (chained : root.Chain chain) : chain.length ≤ rank [] + 1 := by
  have below : ∃ site, chain.getLast? = some site ∧ chain.length + rank site ≤ rank [] + 1 := by
    induction chained with
    | self => exact ⟨[], rfl, by simp [Nat.add_comm]⟩
    | @own chain _ _ _ header _ _ last held member _ ih =>
      obtain ⟨site, same, below⟩ := ih
      obtain rfl := Option.some.inj (same.symm.trans last)
      have falls := own held member
      refine ⟨header.name :: site, List.getLast?_concat, ?_⟩
      rw [List.length_append, List.length_singleton]
      omega
    | @demanded chain _ target _ _ _ before last held member path_mem demands ih =>
      obtain ⟨site, same, below⟩ := ih
      obtain rfl := Option.some.inj (same.symm.trans last)
      have falls := demanded before last held member path_mem demands
      refine ⟨target, List.getLast?_concat, ?_⟩
      rw [List.length_append, List.length_singleton]
      omega
  obtain ⟨site, -, below⟩ := below
  omega

/-- Where demands lead inward only, no chain is longer than the graphs are inside each other. -/
theorem length_le_nesting (inward : root.IsInward) (chained : root.Chain chain) :
    chain.length ≤ root.nesting := by
  -- The rank of a site is the number of levels that may be inside it.
  have falls {name : String} {site : Site} {graph : Graph}
      (held : root.Holds (name :: site) graph) :
      Step.levelsOfAll root - (name :: site).length < Step.levelsOfAll root - site.length := by
    have deepest := held.length_add_levelsOfAll_le
    rw [List.length_cons] at deepest ⊢
    omega
  refine length_le_of_falls (fun site => Step.levelsOfAll root - site.length)
    (fun held member => falls (held.body member)) ?_ chained
  intro chain site graph step path target before last held member path_mem demands
  obtain ⟨name, rfl⟩ :=
    inward chain site graph step path target before last held member path_mem demands
  obtain ⟨body, there⟩ := demands.exists_holds
  exact falls there

end Chain

/-- Some chain is as long as the graphs are inside each other. -/
theorem exists_chain_of_nesting (root : Graph) :
    ∃ chain, root.Chain chain ∧ chain.length = root.nesting := by
  have held : root.Holds [] root := .self
  obtain ⟨chain, chained, length⟩ := Chain.self.exists_deeper rfl held (by simp) rfl
  exact ⟨chain, chained, length.trans (Nat.add_comm _ _)⟩

/-! ## Searches and the bodies that they have run -/

/-- What a search brings about in a graph at a site is among some searches, and any body that it has
run there is as allowed. -/
def Covers (allowed : Site → Prop) (searches : List (Site × String)) (search : Site × String)
    (place : Site × Graph) : Prop :=
  (place.1 = search.1 → ∀ step ∈ findStep? place.2 (Path.head search.2),
    (step.hasBody = true → allowed (step.name :: place.1)) ∧
      ∀ further ∈ step.paths, (place.1, further) ∈ searches) ∧
    ∀ step ∈ place.2, step.name :: place.1 = search.1 ∧ step.isNamespaced = true ∧
      step.gives search.2 = false → ∀ rest ∈ insideInputs? search.2, (place.1, rest) ∈ searches

instance (allowed : Site → Prop) [DecidablePred allowed] (searches : List (Site × String))
    (search : Site × String) (place : Site × Graph) :
    Decidable (Covers allowed searches search place) :=
  @instDecidableAnd _ _ inferInstance inferInstance

/-- Whatever some searches bring about is among them, and the bodies that they have run are as
allowed. -/
def Confines (root : Graph) (allowed : Site → Prop) (searches : List (Site × String)) : Prop :=
  ∀ search ∈ searches, ∀ place ∈ root.places, Covers allowed searches search place

instance (root : Graph) (allowed : Site → Prop) [DecidablePred allowed]
    (searches : List (Site × String)) : Decidable (root.Confines allowed searches) :=
  inferInstanceAs (Decidable (∀ search ∈ searches, ∀ place ∈ root.places, _))

/-- The bodies that searches demand are as allowed. -/
theorem Demands.allowed {allowed : Site → Prop} {searches : List (Site × String)}
    (confined : root.Confines allowed searches) (demands : root.Demands chain site path target)
    (listed : (site, path) ∈ searches) : allowed target := by
  induction demands with
  | body held found _ =>
    exact ((confined _ listed _ held.mem_places).1 rfl _ found).1 rfl
  | through held found _ member _ ih =>
    exact ih (((confined _ listed _ held.mem_places).1 rfl _ found).2 _ member)
  | caller held member namespaced missing inside _ ih =>
    have covered := (confined _ listed _ held.mem_places).2 _ member
    exact ih (covered ⟨rfl, namespaced, missing⟩ _ inside)

/-- What the bodies of a graph look for in the contexts of their callers, with the sites there. -/
def outward (root : Graph) : List (Site × String) :=
  root.places.flatMap fun place => (place.2.filter Step.isNamespaced).flatMap fun step =>
    (root.places.filter fun inner => inner.1 = step.name :: place.1).flatMap fun inner =>
      inner.2.flatMap fun reader => (reader.paths.filter fun path => !step.gives path).filterMap
        fun path => (insideInputs? path).map (place.1, ·)

/-- What is left of a path of a body, which its step gives no input there, is looked for in the
caller. -/
theorem mem_outward {inner : Graph} {step reader : Step} {rest : String}
    (around : (site, graph) ∈ root.places) (member : step ∈ graph)
    (namespaced : step.isNamespaced = true) (body : (step.name :: site, inner) ∈ root.places)
    (reads : reader ∈ inner) (path_mem : path ∈ reader.paths) (missing : step.gives path = false)
    (inside : insideInputs? path = some rest) : (site, rest) ∈ root.outward := by
  refine List.mem_flatMap.mpr ⟨_, around, List.mem_flatMap.mpr ⟨step, ?_, ?_⟩⟩
  · exact List.mem_filter.mpr ⟨member, namespaced⟩
  refine List.mem_flatMap.mpr ⟨_, List.mem_filter.mpr ⟨body, by simp⟩, ?_⟩
  refine List.mem_flatMap.mpr ⟨reader, reads, List.mem_filterMap.mpr ⟨path, ?_, ?_⟩⟩
  · exact List.mem_filter.mpr ⟨path_mem, by simp [missing]⟩
  · rw [inside, Option.map_some]

/-- Demands lead inward if whatever the bodies look for in their callers has no body run. -/
theorem isInward_of_confines {searches : List (Site × String)}
    (idle : root.Confines (fun _ => False) searches) (listed : root.outward ⊆ searches) :
    root.IsInward := by
  intro chain site graph step path target _ last held member path_mem demands
  clear last
  induction demands generalizing graph step with
  | body _ _ _ => exact ⟨_, rfl⟩
  | through around found _ further_mem _ ih =>
    exact ih _ _ around (findStep?_eq_some found).1 further_mem
  | caller around outer_mem namespaced missing inside demands _ =>
    have sought := mem_outward around.mem_places outer_mem namespaced held.mem_places member
      path_mem missing inside
    exact (demands.allowed idle (listed sought)).elim

/-- Ranks of sites fall from each body to those of its steps, and to those that its searches have
run, with which each site is listed. -/
def IsRanking (root : Graph) (rank : Site → Nat) (searches : Site → List (Site × String)) : Prop :=
  ∀ place ∈ root.places,
    (∀ step ∈ place.2, (step.hasBody = true → rank (step.name :: place.1) < rank place.1) ∧
      ∀ path ∈ step.paths, (place.1, path) ∈ searches place.1) ∧
      root.Confines (fun target => rank target < rank place.1) (searches place.1)

instance (root : Graph) (rank : Site → Nat) (searches : Site → List (Site × String)) :
    Decidable (root.IsRanking rank searches) :=
  inferInstanceAs (Decidable (∀ place ∈ root.places, _ ∧ _))

/-- No chain is longer than a ranking allows. -/
theorem Chain.length_le_of_ranking {rank : Site → Nat} {searches : Site → List (Site × String)}
    (ranking : root.IsRanking rank searches) (chained : root.Chain chain) :
    chain.length ≤ rank [] + 1 := by
  refine length_le_of_falls rank (fun held member => ?_) ?_ chained
  · exact ((ranking _ held.mem_places).1 _ member).1 rfl
  · intro chain site graph step path target _ _ held member path_mem demands
    obtain ⟨listed, confined⟩ := ranking _ held.mem_places
    exact demands.allowed confined ((listed _ member).2 _ path_mem)

/-! ## What may be looked for and run -/

/-- Whatever body a path demands at a site may come next in a chain. -/
def AllowsPath (root : Graph) (chain : List Site) (site : Site) (path : String) : Prop :=
  ∀ target, root.Demands chain site path target → root.Chain (chain ++ [target])

/-- Whatever body is run with a step at a site may come next in a chain. -/
structure AllowsStep (root : Graph) (chain : List Site) (site : Site) (step : Step) : Prop where
  /-- The body of the step may. -/
  body : ∀ {header invocation steps}, step = .graph header invocation (.inline steps) →
    root.Chain (chain ++ [header.name :: site])
  /-- What its paths demand may. -/
  path : ∀ {path}, path ∈ step.paths → root.AllowsPath chain site path

section Allowing

variable {step : Step}

/-- The last body of a chain may run its steps. -/
theorem Chain.allowsStep (chained : root.Chain chain) (last : chain.getLast? = some site)
    (held : root.Holds site graph) (member : step ∈ graph) (fresh : step.name :: site ∉ chain) :
    root.AllowsStep chain site step where
  body := by
    rintro header invocation steps rfl
    exact .own chained last held member fresh
  path := fun path_mem _ demands => .demanded chained last held member path_mem demands

/-- Where a path may be looked for, the step that it starts from may be run if it has not begun. -/
theorem AllowsPath.allowsStep (allows : root.AllowsPath chain site path)
    (held : root.Holds site graph) (found : findStep? graph (Path.head path) = some step)
    (fresh : ¬graph.HasBegun chain site step) : root.AllowsStep chain site step where
  body := by
    rintro header invocation steps rfl
    exact allows _ (.body held found fresh)
  path := fun path_mem _ demands => allows _ (.through held found fresh path_mem demands)

/-- Where a path may be looked for, what is left of it inside the inputs may be looked for in the
caller, unless the body was given the input. -/
theorem AllowsPath.caller {steps : Graph} {header : Header} {invocation : Invocation}
    {rest : String} (allows : root.AllowsPath chain (header.name :: site) path)
    (held : root.Holds site graph) (member : .graph header invocation (.inline steps) ∈ graph)
    (namespaced : Step.isNamespaced (.graph header invocation (.inline steps)) = true)
    (missing : Step.gives (.graph header invocation (.inline steps)) path = false)
    (inside : insideInputs? path = some rest) : root.AllowsPath chain site rest :=
  fun _ demands => allows _ (.caller held member namespaced missing inside demands)

end Allowing

end Graph

end StepGraph
