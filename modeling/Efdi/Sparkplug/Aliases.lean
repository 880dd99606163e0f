import Efdi.Base.PyDict
import Efdi.Base.PyStr
import Efdi.Base.Runs
import Efdi.Base.Search
import Mathlib.Data.List.Dedup

/-!
# Sparkplug aliases

A BIRTH declares a name for each alias of a scope, and the messages that follow may carry the
alias alone.  `AliasTable` keeps one table for each scope, a node or a device of a node.

A scope is in a session from its BIRTH to its DEATH, or to the next NBIRTH or NDEATH of its node.
A nameless metric should get the name that the BIRTH of the current session declares
(`Resolved`).  Two things break this.  `learn` and `resolve` test the alias as a truth value, so
alias 0 never gets a name.  And a message of a node leaves the tables of its devices in place.
Nothing else does (`always_resolved_iff`).
-/

namespace Efdi.Sparkplug

open List Option PyDict

/-! ## Messages -/

/-- What a table is kept for.  `device` is empty for the node itself. -/
structure Scope where
  group : String
  edgeNode : String
  device : String
deriving DecidableEq

/-- The edge node of a scope. -/
def Scope.node (scope : Scope) : String × String := (scope.group, scope.edgeNode)

/-- What `parse_topic` returns. -/
structure Topic where
  groupId : String
  messageType : String
  edgeNodeId : String
  deviceId : String
deriving DecidableEq

def marker : String := "/raw/mqtt/spBv1.0/"

def parseTopic (key : String) : Option Topic :=
  match Search.find? marker.toList key.toList with
  | none => none
  | some index =>
    let levels := PyStr.split '/' (PyStr.drop (index + PyStr.len marker) key)
    match levels.filter (· ≠ "") with
    | group :: messageType :: edgeNode :: rest =>
      some ⟨group, messageType, edgeNode, rest.headD ""⟩
    | _ => none

/-- A metric of a payload.  Both fields are optional in the schema. -/
structure Metric where
  name : Option String
  aliasNumber : Option Nat
deriving DecidableEq

/-- `metric.name`: an absent field reads as its default. -/
def Metric.readName (metric : Metric) : String := metric.name.getD ""

/-- `metric.alias`. -/
def Metric.readAlias (metric : Metric) : Nat := metric.aliasNumber.getD 0

/-- A sample: its key, and the metrics of its payload when it is one. -/
structure Sample where
  key : String
  payload : Option (List Metric)

/-- `AliasTable._scope`. -/
def scopeOf (topic : Topic) : Scope := ⟨topic.groupId, topic.edgeNodeId, topic.deviceId⟩

/-- What `on_sample` makes of a sample: the type in upper case, the scope and the metrics. -/
structure Message where
  type : String
  scope : Scope
  metrics : List Metric

/-- The first half of `on_sample`.  `upper` is `str.upper`. -/
def message? (upper : String → String) (sample : Sample) : Option Message :=
  match parseTopic sample.key, sample.payload with
  | some topic, some metrics => some ⟨upper topic.messageType, scopeOf topic, metrics⟩
  | _, _ => none

def birthTypes : List String := ["NBIRTH", "DBIRTH"]
def deathTypes : List String := ["NDEATH", "DDEATH"]

def Message.isBirth (m : Message) : Bool := birthTypes.contains m.type
def Message.isDeath (m : Message) : Bool := deathTypes.contains m.type

/-! ## The table -/

/-- `AliasTable._tables`. -/
abbrev Tables : Type := PyDict Scope (PyDict Nat String)

/-- One round of the loop of `AliasTable.learn`. -/
def learnMetric (table : PyDict Nat String) (metric : Metric) : PyDict Nat String :=
  if metric.readName ≠ "" ∧ metric.readAlias ≠ 0 then
    table.set metric.readAlias metric.readName
  else table

/-- The table of a BIRTH. -/
def tableOf (metrics : List Metric) : PyDict Nat String :=
  metrics.foldl learnMetric PyDict.empty

/-- `AliasTable.learn`.  With no room and no table to drop it raises. -/
def learn (limit : Int) (tables : Tables) (scope : Scope) (metrics : List Metric) :
    Option Tables :=
  if tables.contains scope = false ∧ limit ≤ tables.length then
    match tables.entries with
    | [] => none
    | (oldest, _) :: _ => some ((tables.pop oldest).set scope (tableOf metrics))
  else some (tables.set scope (tableOf metrics))

/-- `AliasTable.forget`. -/
def forget (tables : Tables) (scope : Scope) : Tables := tables.pop scope

/-- `AliasTable.resolve`. -/
def resolve (tables : Tables) (scope : Scope) (metric : Metric) : String :=
  if metric.readName ≠ "" then metric.readName
  else if metric.readAlias ≠ 0 then
    (((tables.get? scope).getD PyDict.empty).get? metric.readAlias).getD ""
  else ""

/-- The second half of `on_sample`, which leaves the tables as they are when `learn` raises. -/
def receive (limit : Int) (tables : Tables) (m : Message) : Tables :=
  if m.isBirth then (learn limit tables m.scope m.metrics).getD tables
  else if m.isDeath then forget tables m.scope
  else tables

/-- The tables, and the messages so far, the newest first. -/
structure Translator where
  tables : Tables
  seen : List Message

def Translator.init : Translator := ⟨PyDict.empty, []⟩

/-- `on_sample`. -/
def onSample (upper : String → String) (limit : Int) (s : Translator) (sample : Sample) :
    Translator :=
  match message? upper sample with
  | none => s
  | some m => ⟨receive limit s.tables m, m :: s.seen⟩

/-! ## Sessions -/

/-- A message begins or ends the session of a node. -/
def Message.ofNode (m : Message) : Bool := m.type == "NBIRTH" || m.type == "NDEATH"

/-- A message begins or ends the session of a scope. -/
def Message.concerns (scope : Scope) (m : Message) : Bool :=
  (decide (m.scope = scope) && (m.isBirth || m.isDeath)) ||
    (decide (m.scope.node = scope.node) && m.ofNode)

/-- A metric that declares a name for an alias. -/
def declares (number : Nat) (metric : Metric) : Bool :=
  decide (metric.readName ≠ "" ∧ metric.aliasNumber = some number)

/-- The name that a BIRTH declares for an alias: the last one. -/
def declared (metrics : List Metric) (number : Nat) : String :=
  ((metrics.reverse.find? (declares number)).map Metric.readName).getD ""

/-- The name that the current session of a scope has for an alias. -/
def current (seen : List Message) (scope : Scope) (number : Nat) : String :=
  match seen.find? (Message.concerns scope) with
  | some m => if m.isBirth ∧ m.scope = scope then declared m.metrics number else ""
  | none => ""

/-- A nameless metric gets the name of the current session. -/
def Resolved (s : Translator) : Prop :=
  ∀ (scope : Scope) (metric : Metric), metric.readName = "" →
    resolve s.tables scope metric = (metric.aliasNumber.map (current s.seen scope)).getD ""

/-- A message declares no name for alias 0, and a message of a node comes when no other scope of
the node has a name in its table. -/
def Clean (tables : Tables) (m : Message) : Prop :=
  (m.isBirth → ∀ metric ∈ m.metrics, metric.readName ≠ "" → metric.aliasNumber ≠ some 0) ∧
    (m.ofNode → ∀ e ∈ tables.entries, e.1 ≠ m.scope → e.1.node = m.scope.node →
      e.2 = PyDict.empty)

instance (tables : Tables) (m : Message) : Decidable (Clean tables m) :=
  inferInstanceAs (Decidable (_ ∧ _))

/-- The condition on a sample. -/
def CleanSample (upper : String → String) (s : Translator) (sample : Sample) : Prop :=
  match message? upper sample with
  | none => True
  | some m => Clean s.tables m

/-! ## Names of an alias -/

variable {upper : String → String} {limit : Int}

/-- The name that the tables hold for an alias of a scope. -/
def stored (tables : Tables) (scope : Scope) (number : Nat) : String :=
  if number ≠ 0 then (((tables.get? scope).getD PyDict.empty).get? number).getD "" else ""

theorem resolve_nameless {tables : Tables} {scope : Scope} {metric : Metric}
    (h : metric.readName = "") :
    resolve tables scope metric = stored tables scope metric.readAlias :=
  if_neg (not_not.mpr h)

theorem resolved_iff {s : Translator} :
    Resolved s ↔ ∀ scope number, stored s.tables scope number = current s.seen scope number := by
  constructor
  · intro h scope number
    have hname : (⟨none, some number⟩ : Metric).readName = "" := rfl
    have hmetric := h scope _ hname
    rwa [resolve_nameless hname] at hmetric
  · intro h scope metric hname
    rw [resolve_nameless hname, Metric.readAlias]
    cases metric.aliasNumber with
    | none => rfl
    | some number => exact h scope number

theorem learned_iff {metric : Metric} {number : Nat} (hnumber : number ≠ 0) :
    declares number metric = true ↔
      (metric.readName ≠ "" ∧ metric.readAlias ≠ 0) ∧ metric.readAlias = number := by
  rw [declares, decide_eq_true_iff, Metric.readAlias, and_assoc]
  refine and_congr_right fun _ => ?_
  cases metric.aliasNumber with
  | none =>
    refine iff_of_false (fun h => by cases h) fun h => h.1 rfl
  | some other =>
    rw [Option.some.injEq, getD_some]
    constructor
    · rintro rfl
      exact ⟨hnumber, rfl⟩
    · exact fun h => h.2

/-- What a BIRTH writes for an alias that is not zero. -/
theorem get?_foldl {number : Nat} (hnumber : number ≠ 0) : ∀ (metrics : List Metric)
    (table : PyDict Nat String),
    (metrics.foldl learnMetric table).get? number =
      ((metrics.reverse.find? (declares number)).map Metric.readName).or (table.get? number)
  | [], _ => rfl
  | metric :: metrics, table => by
    rw [List.foldl_cons, get?_foldl hnumber metrics, List.reverse_cons, List.find?_append,
      Option.map_or, Option.or_assoc, List.find?_singleton]
    congr 1
    have hiff : declares number metric = true ↔ _ := learned_iff hnumber
    by_cases hlearned : metric.readName ≠ "" ∧ metric.readAlias ≠ 0
    · rw [learnMetric, if_pos hlearned]
      by_cases hsame : metric.readAlias = number
      · rw [if_pos (hiff.mpr ⟨hlearned, hsame⟩), hsame, get?_set_self]
        rfl
      · rw [if_neg fun h => hsame (hiff.mp h).2, get?_set_of_ne _ (Ne.symm hsame)]
        rfl
    · rw [learnMetric, if_neg hlearned, if_neg fun h => hlearned (hiff.mp h).1]
      rfl

theorem get?_tableOf {number : Nat} (hnumber : number ≠ 0) (metrics : List Metric) :
    (tableOf metrics).get? number =
      (metrics.reverse.find? (declares number)).map Metric.readName := by
  rw [tableOf, get?_foldl hnumber]
  exact or_none

/-- A table holds names, and none for alias 0. -/
def Named (table : PyDict Nat String) : Prop :=
  ∀ number name, table.get? number = some name → number ≠ 0 ∧ name ≠ ""

theorem named_foldl : ∀ (metrics : List Metric) (table : PyDict Nat String), Named table →
    Named (metrics.foldl learnMetric table)
  | [], _, h => h
  | metric :: metrics, table, h => by
    refine named_foldl metrics _ ?_
    by_cases hlearned : metric.readName ≠ "" ∧ metric.readAlias ≠ 0
    · rw [learnMetric, if_pos hlearned]
      intro number name hname
      by_cases hsame : number = metric.readAlias
      · rw [hsame, get?_set_self] at hname
        rw [hsame, ← Option.some.inj hname]
        exact ⟨hlearned.2, hlearned.1⟩
      · rw [get?_set_of_ne _ hsame] at hname
        exact h number name hname
    · rw [learnMetric, if_neg hlearned]
      exact h

theorem named_tableOf (metrics : List Metric) : Named (tableOf metrics) :=
  named_foldl metrics PyDict.empty fun _ _ h => by cases h

theorem stored_tableOf {tables : Tables} {scope : Scope} {metrics : List Metric}
    (h : tables.get? scope = some (tableOf metrics)) (number : Nat) :
    stored tables scope number = if number ≠ 0 then declared metrics number else "" := by
  rw [stored, h]
  by_cases hnumber : number ≠ 0
  · rw [if_pos hnumber, if_pos hnumber, getD_some, get?_tableOf hnumber]
    rfl
  · rw [if_neg hnumber, if_neg hnumber]

/-- A BIRTH declares no name for an alias exactly when none of its metrics does. -/
theorem declared_eq_empty_iff {metrics : List Metric} {number : Nat} :
    declared metrics number = "" ↔
      ∀ metric ∈ metrics, metric.readName ≠ "" → metric.aliasNumber ≠ some number := by
  rw [declared]
  cases hfound : metrics.reverse.find? (declares number) with
  | none =>
    refine iff_of_true rfl fun metric hmetric hname hnumber => ?_
    have hnot := find?_eq_none.mp hfound metric (mem_reverse.mpr hmetric)
    exact hnot (decide_eq_true ⟨hname, hnumber⟩)
  | some metric =>
    have hsome := find?_some hfound
    have hdeclares := of_decide_eq_true hsome
    have hmem := mem_reverse.mp (mem_of_find?_eq_some hfound)
    exact iff_of_false hdeclares.1 fun h => h metric hmem hdeclares.1 hdeclares.2

/-- No name is stored for a scope exactly when its table is empty. -/
theorem stored_eq_empty_iff {tables : Tables} {scope : Scope}
    (h : ∀ table, tables.get? scope = some table → Named table) :
    (∀ number, stored tables scope number = "") ↔
      ∀ table, tables.get? scope = some table → table = PyDict.empty := by
  constructor
  · intro hnone table htable
    refine eq_empty_of_get? fun number => ?_
    cases hname : table.get? number with
    | none => rfl
    | some name =>
      obtain ⟨hnumber, hne⟩ := h table htable number name hname
      have hstored := hnone number
      rw [stored, if_pos hnumber, htable, getD_some, hname] at hstored
      exact absurd hstored hne
  · intro hempty number
    rw [stored]
    cases htable : tables.get? scope with
    | none => exact ite_self _
    | some table =>
      rw [hempty table htable]
      exact ite_self _

/-! ## One message -/

/-- The tables are kept for known scopes, and they hold names. -/
structure Sound (known : List Scope) (tables : Tables) : Prop where
  known : ∀ scope, tables.contains scope = true → scope ∈ known
  named : ∀ scope table, tables.get? scope = some table → Named table

variable {known : List Scope} {tables : Tables} {m : Message}

/-- There is room for every known scope. -/
theorem learn_eq (h : Sound known tables) (hlimit : known.length ≤ limit)
    (hscope : m.scope ∈ known) :
    learn limit tables m.scope m.metrics = some (tables.set m.scope (tableOf m.metrics)) := by
  refine if_neg ?_
  rintro ⟨hnew, hfull⟩
  have hlt := length_lt_of_not_contains h.known hscope hnew
  omega

theorem isDeath_of_isBirth (h : m.isBirth = true) : m.isDeath = false := by
  have hbirth := contains_iff_mem.mp h
  simp only [birthTypes, mem_cons, not_mem_nil, or_false] at hbirth
  rw [Message.isDeath]
  rcases hbirth with htype | htype <;> rw [htype] <;> rfl

theorem isBirth_or_isDeath_of_ofNode (h : m.ofNode = true) :
    m.isBirth = true ∨ m.isDeath = true := by
  rw [Message.ofNode, Bool.or_eq_true, beq_iff_eq, beq_iff_eq] at h
  rw [Message.isBirth, Message.isDeath]
  rcases h with htype | htype <;> rw [htype]
  · exact Or.inl rfl
  · exact Or.inr rfl

/-- The names of a scope that a message is not about stay. -/
theorem get?_receive_of_ne (h : Sound known tables) (hlimit : known.length ≤ limit)
    (hscope : m.scope ∈ known) {scope : Scope} (hne : scope ≠ m.scope) :
    (receive limit tables m).get? scope = tables.get? scope := by
  rw [receive, learn_eq h hlimit hscope, getD_some, forget]
  by_cases hbirth : m.isBirth = true
  · rw [if_pos hbirth, get?_set_of_ne _ hne]
  · rw [if_neg hbirth]
    by_cases hdeath : m.isDeath = true
    · rw [if_pos hdeath, get?_pop_of_ne _ hne]
    · rw [if_neg hdeath]

theorem get?_receive_birth (h : Sound known tables) (hlimit : known.length ≤ limit)
    (hscope : m.scope ∈ known) (hbirth : m.isBirth = true) :
    (receive limit tables m).get? m.scope = some (tableOf m.metrics) := by
  rw [receive, learn_eq h hlimit hscope, getD_some, if_pos hbirth, get?_set_self]

theorem get?_receive_death (hdeath : m.isDeath = true) :
    (receive limit tables m).get? m.scope = none := by
  have hbirth : m.isBirth = false := by
    cases hbirth : m.isBirth with
    | false => rfl
    | true =>
      rw [isDeath_of_isBirth hbirth] at hdeath
      cases hdeath
  rw [receive, hbirth, hdeath]
  exact get?_pop_self _ _

theorem receive_other (hbirth : m.isBirth = false) (hdeath : m.isDeath = false) :
    receive limit tables m = tables := by
  rw [receive, hbirth, hdeath]
  rfl

theorem sound_receive (h : Sound known tables) (hlimit : known.length ≤ limit)
    (hscope : m.scope ∈ known) : Sound known (receive limit tables m) := by
  constructor
  case known =>
    intro scope hcontains
    by_cases hsame : scope = m.scope
    · rw [hsame]
      exact hscope
    · rw [PyDict.contains, get?_receive_of_ne h hlimit hscope hsame] at hcontains
      exact h.known scope hcontains
  case named =>
    intro scope table htable
    by_cases hsame : scope = m.scope
    · rw [hsame] at htable
      by_cases hbirth : m.isBirth = true
      · rw [get?_receive_birth h hlimit hscope hbirth] at htable
        rw [← Option.some.inj htable]
        exact named_tableOf _
      · by_cases hdeath : m.isDeath = true
        · rw [get?_receive_death hdeath] at htable
          cases htable
        · rw [receive_other (Bool.eq_false_iff.mpr hbirth) (Bool.eq_false_iff.mpr hdeath)] at htable
          exact h.named _ table htable
    · rw [get?_receive_of_ne h hlimit hscope hsame] at htable
      exact h.named scope table htable

/-! ## The current session -/

variable {seen : List Message} {scope : Scope} {number : Nat}

theorem current_of_concerns (h : m.concerns scope = true) :
    current (m :: seen) scope number =
      if m.isBirth ∧ m.scope = scope then declared m.metrics number else "" := by
  rw [current, find?_cons_of_pos h]

theorem current_of_not_concerns (h : m.concerns scope = false) :
    current (m :: seen) scope number = current seen scope number := by
  rw [current, current, find?_cons_of_neg (Bool.eq_false_iff.mp h)]

/-- A message is about its own scope when it is a BIRTH or a DEATH. -/
theorem concerns_self : m.concerns m.scope = (m.isBirth || m.isDeath) := by
  rw [Message.concerns, decide_eq_true rfl, decide_eq_true rfl, Bool.true_and, Bool.true_and]
  cases hnode : m.ofNode with
  | false => rw [Bool.or_false]
  | true =>
    rw [Bool.or_true, eq_comm, Bool.or_eq_true]
    exact isBirth_or_isDeath_of_ofNode hnode

/-- A message of a node is about the other scopes of the node. -/
theorem concerns_of_ne (h : scope ≠ m.scope) :
    m.concerns scope = (decide (m.scope.node = scope.node) && m.ofNode) := by
  rw [Message.concerns, decide_eq_false (Ne.symm h), Bool.false_and, Bool.false_or]

theorem stored_congr {tables' : Tables} (h : tables'.get? scope = tables.get? scope) :
    stored tables' scope number = stored tables scope number := by
  rw [stored, stored, h]

theorem stored_of_none (h : tables.get? scope = none) : stored tables scope number = "" := by
  rw [stored, h]
  exact ite_self _

section

variable (h : Sound known tables) (hlimit : known.length ≤ limit) (hscope : m.scope ∈ known)
  (hresolved : ∀ scope number, stored tables scope number = current seen scope number)
include h hlimit hscope hresolved

/-- The scope of a message keeps its names when a BIRTH declares none for alias 0. -/
theorem own_resolved_iff :
    (∀ number, stored (receive limit tables m) m.scope number =
        current (m :: seen) m.scope number) ↔
      (m.isBirth → ∀ metric ∈ m.metrics, metric.readName ≠ "" → metric.aliasNumber ≠ some 0) := by
  by_cases hbirth : m.isBirth = true
  · have hconcerns : m.concerns m.scope = true := by
      rw [concerns_self, hbirth, Bool.true_or]
    simp only [stored_tableOf (get?_receive_birth h hlimit hscope hbirth),
      current_of_concerns hconcerns, hbirth, true_implies, and_self, if_true]
    rw [← declared_eq_empty_iff]
    constructor
    · intro hall
      exact (hall 0).symm
    · intro hzero number
      by_cases hnumber : number ≠ 0
      · exact if_pos hnumber
      · rw [if_neg hnumber, not_not.mp hnumber, hzero]
  · refine iff_of_true (fun number => ?_) fun hb => absurd hb hbirth
    by_cases hdeath : m.isDeath = true
    · have hconcerns : m.concerns m.scope = true := by
        rw [concerns_self, hdeath, Bool.or_true]
      rw [stored_of_none (get?_receive_death hdeath), current_of_concerns hconcerns,
        if_neg fun hb => hbirth hb.1]
    · have hbirth' := Bool.eq_false_iff.mpr hbirth
      have hdeath' := Bool.eq_false_iff.mpr hdeath
      have hconcerns : m.concerns m.scope = false := by
        rw [concerns_self, hbirth', hdeath']
        rfl
      rw [receive_other hbirth' hdeath', current_of_not_concerns hconcerns]
      exact hresolved _ _

/-- Another scope keeps its names, unless the message is one of its node and the scope has any. -/
theorem other_resolved_iff (hne : scope ≠ m.scope) :
    (∀ number, stored (receive limit tables m) scope number =
        current (m :: seen) scope number) ↔
      (m.ofNode → scope.node = m.scope.node →
        ∀ table, tables.get? scope = some table → table = PyDict.empty) := by
  simp only [stored_congr (get?_receive_of_ne h hlimit hscope hne)]
  by_cases hnode : m.ofNode = true ∧ scope.node = m.scope.node
  · have hconcerns : m.concerns scope = true := by
      rw [concerns_of_ne hne, hnode.1, decide_eq_true hnode.2.symm]
      rfl
    simp only [current_of_concerns hconcerns, if_neg fun hb : _ ∧ m.scope = scope => hne hb.2.symm]
    rw [stored_eq_empty_iff (h.named scope)]
    exact ⟨fun hempty _ _ => hempty, fun hempty => hempty hnode.1 hnode.2⟩
  · have hconcerns : m.concerns scope = false := by
      rw [concerns_of_ne hne, Bool.and_eq_false_iff, decide_eq_false_iff_not]
      by_cases hsame : m.scope.node = scope.node
      · exact Or.inr (Bool.eq_false_iff.mpr fun hof => hnode ⟨hof, hsame.symm⟩)
      · exact Or.inl hsame
    simp only [current_of_not_concerns hconcerns]
    exact iff_of_true (hresolved scope) fun hof hsame => absurd ⟨hof, hsame⟩ hnode

/-- A message keeps the names of the current sessions exactly when it is clean. -/
theorem resolved_receive_iff :
    Resolved ⟨receive limit tables m, m :: seen⟩ ↔ Clean tables m := by
  rw [resolved_iff, Clean, ← own_resolved_iff h hlimit hscope hresolved]
  constructor
  · intro hall
    refine ⟨hall m.scope, fun hof e he hne hnode => ?_⟩
    exact (other_resolved_iff h hlimit hscope hresolved hne).mp (hall e.1) hof hnode e.2
      (get?_eq_some_iff.mpr he)
  · rintro ⟨hown, hother⟩ scope
    by_cases hsame : scope = m.scope
    · rw [hsame]
      exact hown
    · refine (other_resolved_iff h hlimit hscope hresolved hsame).mpr ?_
      intro hof hnode table htable
      exact hother hof (scope, table) (get?_eq_some_iff.mp htable) hsame hnode

end

/-! ## Runs -/

instance (upper : String → String) (s : Translator) (sample : Sample) :
    Decidable (CleanSample upper s sample) :=
  match h : message? upper sample with
  | none => isTrue (by rw [CleanSample, h]; trivial)
  | some m => decidable_of_iff (Clean s.tables m) (by rw [CleanSample, h])

/-- The scopes of the messages among some samples. -/
def scopes (upper : String → String) (samples : List Sample) : List Scope :=
  ((samples.filterMap (message? upper)).map Message.scope).dedup

theorem mem_scopes {samples : List Sample} {sample : Sample} (hsample : sample ∈ samples)
    (hm : message? upper sample = some m) : m.scope ∈ scopes upper samples :=
  mem_dedup.mpr (mem_map_of_mem (mem_filterMap.mpr ⟨sample, hsample, hm⟩))

theorem resolved_init : Resolved Translator.init :=
  resolved_iff.mpr fun _ _ => stored_of_none rfl

theorem sound_init : Sound known Translator.init.tables where
  known _ h := absurd h Bool.false_ne_true
  named _ _ h := by cases h

theorem onSample_some {s : Translator} {sample : Sample} (hm : message? upper sample = some m) :
    onSample upper limit s sample = ⟨receive limit s.tables m, m :: s.seen⟩ := by
  rw [onSample, hm]

theorem onSample_none {s : Translator} {sample : Sample} (hm : message? upper sample = none) :
    onSample upper limit s sample = s := by
  rw [onSample, hm]

/-- For samples of at most as many scopes as there are tables, every nameless metric gets the name
of its current session all along the run exactly when every message is clean. -/
theorem always_resolved_iff (upper : String → String) (limit : Int) (samples : List Sample)
    (hlimit : (scopes upper samples).length ≤ limit) :
    Runs.Always (onSample upper limit) Resolved Translator.init samples ↔
      Runs.Guarded (onSample upper limit) (CleanSample upper) Translator.init samples := by
  rw [Runs.always_iff_guarded, and_iff_right resolved_init]
  have hagree : ∀ s sample, Sound (scopes upper samples) s.tables ∧ Resolved s →
      sample ∈ samples →
        (Resolved (onSample upper limit s sample) ↔ CleanSample upper s sample) := by
    rintro s sample ⟨hsound, hresolved⟩ hsample
    cases hm : message? upper sample with
    | none =>
      rw [onSample_none hm, CleanSample, hm]
      exact iff_of_true hresolved trivial
    | some m =>
      rw [onSample_some hm, CleanSample, hm]
      exact resolved_receive_iff hsound hlimit (mem_scopes hsample hm)
        (resolved_iff.mp hresolved)
  refine Runs.guarded_congr_of (G := fun _ sample => sample ∈ samples) hagree ?_
    ⟨sound_init, resolved_init⟩ (Runs.guarded_iff.mpr fun as e bs hes => ?_)
  · rintro s sample hs hsample hclean
    refine ⟨?_, (hagree s sample hs hsample).mpr hclean⟩
    cases hm : message? upper sample with
    | none =>
      rw [onSample_none hm]
      exact hs.1
    | some m =>
      rw [onSample_some hm]
      exact sound_receive hs.1 hlimit (mem_scopes hsample hm)
  · rw [hes]
    exact List.mem_append_right _ List.mem_cons_self

/-- A node and its device, each with an alias from 1 on, and data in between. -/
theorem always_resolved_iff_device :
    Runs.Always (onSample id 512) Resolved Translator.init
      [⟨"/raw/mqtt/spBv1.0/g/NBIRTH/n", some [⟨some "Lat", some 1⟩]⟩,
        ⟨"/raw/mqtt/spBv1.0/g/DBIRTH/n/d", some [⟨some "Lon", some 1⟩]⟩,
        ⟨"/raw/mqtt/spBv1.0/g/DDATA/n/d", some [⟨none, some 1⟩]⟩,
        ⟨"/raw/mqtt/spBv1.0/g/DDEATH/n/d", some []⟩] := by
  refine (always_resolved_iff id 512 _ (by decide +kernel)).mpr ?_
  decide +kernel

/-- An alias 0 gets no name, and a device keeps its names when its node is born again. -/
theorem names_of_old_sessions :
    (resolve (Runs.final (onSample id 512) Translator.init
        [⟨"/raw/mqtt/spBv1.0/g/NBIRTH/n", some [⟨some "Lat", some 0⟩]⟩]).tables
        ⟨"g", "n", ""⟩ ⟨none, some 0⟩ = "" ∧
      current (Runs.final (onSample id 512) Translator.init
        [⟨"/raw/mqtt/spBv1.0/g/NBIRTH/n", some [⟨some "Lat", some 0⟩]⟩]).seen
        ⟨"g", "n", ""⟩ 0 = "Lat") ∧
    resolve (Runs.final (onSample id 512) Translator.init
        [⟨"/raw/mqtt/spBv1.0/g/DBIRTH/n/d", some [⟨some "Lon", some 1⟩]⟩,
          ⟨"/raw/mqtt/spBv1.0/g/NBIRTH/n", some []⟩]).tables
        ⟨"g", "n", "d"⟩ ⟨none, some 1⟩ = "Lon" ∧
      current (Runs.final (onSample id 512) Translator.init
        [⟨"/raw/mqtt/spBv1.0/g/DBIRTH/n/d", some [⟨some "Lon", some 1⟩]⟩,
          ⟨"/raw/mqtt/spBv1.0/g/NBIRTH/n", some []⟩]).seen
        ⟨"g", "n", "d"⟩ 1 = "" := by
  decide +kernel

end Efdi.Sparkplug
