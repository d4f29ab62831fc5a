import ShapeDispatch.Proofs.Building
import ShapeDispatch.Proofs.Keeping
import ShapeDispatch.Proofs.Padding

/-!
Adding a rule to a classifier. A value that the rule has no say in keeps its token, wherever in the
list the rule is put (`Classifier.Extends.classify_eq`). So if it spares the defaults of a
description, compilation makes the very same table, and every call whose arguments it spares is
handled as before (`Engine.compile_extended`).
-/

namespace ShapeDispatch
variable {β : Type}

/-- A rule has no say in the token of a value: the value reports a token by itself, or the rule does not
match it. -/
def ClassifierRule.Spares (rule : ClassifierRule β) (v : Value β) : Prop :=
  (Classifier.reportedToken? v).isSome = true ∨ rule.isMatch v = false

instance (rule : ClassifierRule β) (v : Value β) : Decidable (rule.Spares v) :=
  inferInstanceAs (Decidable (_ ∨ _))

/-- The rule is put somewhere among the others, which keep their order. -/
theorem exists_insertBehindExact (rule : ClassifierRule β) (rules : List (ClassifierRule β)) :
    ∃ before behind, rules = before ++ behind ∧
      insertBehindExact rule rules = before ++ rule :: behind := by
  induction rules with
  | nil => exact ⟨[], [], rfl, rfl⟩
  | cons first rest ih =>
    rw [insertBehindExact]
    split
    · obtain ⟨before, behind, hrest, hinsert⟩ := ih
      exact ⟨first :: before, behind, by rw [hrest, List.cons_append],
        by rw [hinsert, List.cons_append]⟩
    · exact ⟨[], first :: rest, rfl, rfl⟩

namespace Classifier

/-- A classifier has one rule more than another, and the others in the same order. -/
def Extends (c' : Classifier β) (rule : ClassifierRule β) (c : Classifier β) : Prop :=
  ∃ before behind, c.rules = before ++ behind ∧ c'.rules = before ++ rule :: behind

theorem extends_register (c : Classifier β) (rule : ClassifierRule β) :
    (c.register rule).Extends rule c := by
  unfold register
  split
  · exact exists_insertBehindExact rule c.rules
  · exact ⟨c.rules, [], by rw [List.append_nil], rfl⟩

theorem extends_registerFront (c : Classifier β) (rule : ClassifierRule β) :
    (c.registerFront rule).Extends rule c := ⟨[], c.rules, rfl, rfl⟩

namespace Extends
variable {c c' : Classifier β} {rule : ClassifierRule β} (h : c'.Extends rule c)
include h

/-- What the rule spares keeps its token. -/
theorem classify_eq {v : Value β} (hv : rule.Spares v) : c'.classify v = c.classify v := by
  unfold classify
  cases hreported : reportedToken? v with
  | some token => rfl
  | none =>
    have hmiss : rule.isMatch v = false := hv.resolve_left (by simp [hreported])
    obtain ⟨before, behind, hrules, hrules'⟩ := h
    have hfind : c'.rules.find? (fun rule => rule.isMatch v) =
        c.rules.find? (fun rule => rule.isMatch v) := by
      rw [hrules, hrules', List.find?_append, List.find?_append, List.find?_cons, hmiss]
    rw [hfind]

theorem typeKey_eq {args : List (Value β)} (hargs : ∀ v ∈ args, rule.Spares v) :
    c'.typeKey args = c.typeKey args :=
  congrArg Key.mk (List.map_congr_left (fun v hv => h.classify_eq (hargs v hv)))

theorem resolveMethods_eq : ∀ {planned : List (PlannedEntry β)} (id : Nat),
    (∀ e ∈ planned, ∀ v ∈ e.defaults, rule.Spares v) →
      resolveMethods c' id planned = resolveMethods c id planned
  | [], _, _ => rfl
  | first :: rest, id, hplanned => by
    obtain ⟨hfirst, hrest⟩ := List.forall_mem_cons.1 hplanned
    have htokens : first.defaults.map c'.classify = first.defaults.map c.classify :=
      List.map_congr_left (fun v hv => h.classify_eq (hfirst v hv))
    rw [resolveMethods, resolveMethods]
    split
    · next implementation _ =>
      rw [resolveMethod, resolveMethod, htokens, resolveMethods_eq (id + 1) hrest]
    · exact resolveMethods_eq id hrest

/-- Keys and aliases have nothing to do with the classifier, so the tables are the same. -/
theorem buildTable_eq {planned : List (PlannedEntry β)} (config : EngineConfig)
    (hplanned : ∀ e ∈ planned, ∀ v ∈ e.defaults, rule.Spares v) :
    buildTable c' config planned = buildTable c config planned := by
  rw [buildTable, buildTable, h.resolveMethods_eq 0 hplanned]

/-- A call whose arguments the rule spares has the same key, so it is handled alike by either. -/
theorem select_eq (t : DispatchTable β) {args : List (Value β)}
    (hargs : ∀ v ∈ args, rule.Spares v) :
    Resolver.select ⟨t, c'⟩ args = Resolver.select ⟨t, c⟩ args := by
  have hkey : (⟨t, c'⟩ : Resolver β).typeKey args = (⟨t, c⟩ : Resolver β).typeKey args :=
    h.typeKey_eq hargs
  rw [Resolver.select, Resolver.select, hkey]

end Extends

end Classifier

namespace Engine

/-- The tables are the same as far as an extension of the classifier spares what is planned. -/
theorem buildTable_extended {engine : Engine β} {c : Classifier β} {rule : ClassifierRule β}
    {d : Description β} (hextends : c.Extends rule engine.classifier)
    (hplanned : ∀ planned, engine.plan d = .ok planned →
      ∀ e ∈ planned, ∀ v ∈ e.defaults, rule.Spares v) :
    { engine with classifier := c }.buildTable d = engine.buildTable d := by
  have hplan : { engine with classifier := c }.plan d = engine.plan d := rfl
  rw [buildTable, buildTable, hplan]
  cases hd : engine.plan d with
  | error error => rfl
  | ok planned => exact hextends.buildTable_eq engine.config (hplanned planned hd)

/-- EXTENSION: a rule that is added to the classifier of an engine, and that spares the defaults of a
description, changes neither whether the description compiles nor its table. Calls whose arguments it
spares select the same entry, key and padding, or miss with the same key, and do the same. A stage of
the author's own must not bring in defaults that the rule does not spare. -/
theorem compile_extended {engine : Engine β} {c : Classifier β} {rule : ClassifierRule β}
    {d : Description β}
    (hadded : c = engine.classifier.register rule ∨ c = engine.classifier.registerFront rule)
    (hdefaults : ∀ declared ∈ d.toList, ∀ v ∈ declared.2.defaults, rule.Spares v)
    (hcustom : ∀ name change, .custom name change ∈ engine.stages →
      (Stage.custom name change).Preserves (fun e => ∀ v ∈ e.defaults, rule.Spares v)) :
    (∃ error, engine.compile d = .error error ∧
      { engine with classifier := c }.compile d = .error error) ∨
    ∃ r r', engine.compile d = .ok r ∧ { engine with classifier := c }.compile d = .ok r' ∧
      r'.classifier = c ∧ r.table = r'.table ∧
      ∀ args, (∀ v ∈ args, rule.Spares v) →
        r.select args = r'.select args ∧ ∀ run, r.call run args = r'.call run args := by
  have hextends : c.Extends rule engine.classifier := by
    obtain rfl | rfl := hadded
    · exact engine.classifier.extends_register rule
    · exact engine.classifier.extends_registerFront rule
  have hbuild := buildTable_extended (d := d) hextends (fun planned hplan =>
    forall_plan (P := fun _ _ defaults => ∀ v ∈ defaults, rule.Spares v) hcustom hdefaults hplan)
  cases ht : engine.buildTable d with
  | error error =>
    exact .inl ⟨error, bind_eq_error.2 (.inl ht), bind_eq_error.2 (.inl (hbuild.trans ht))⟩
  | ok t =>
    refine .inr ⟨⟨t, engine.classifier⟩, ⟨t, c⟩, bind_eq_ok.2 ⟨t, ht, rfl⟩,
      bind_eq_ok.2 ⟨t, hbuild.trans ht, rfl⟩, rfl, rfl, fun args hargs => ?_⟩
    have hselect := hextends.select_eq t hargs
    refine ⟨hselect.symm, fun run => ?_⟩
    rw [Resolver.call, Resolver.call, hselect]

/-- Values with a property of this name are recognised by it. -/
def tagging : ClassifierRule Unit := .predicate "tagged" (fun v _ _ => (v.property? "tag").isSome)

/-- A value that has the property and reports another token by itself. -/
def widget : Value Unit := .host "Widget" [("tag", .null)] [] (some "string")

theorem compile_extended_tagging : ∃ r r', standard.compile Resolver.twoPadded = .ok r ∧
    { standard with classifier := standard.classifier.registerFront tagging }.compile
      Resolver.twoPadded = .ok r' ∧
    r.typeKey [.object [("tag", .null)]] = ⟨["object"]⟩ ∧
    r'.typeKey [.object [("tag", .null)]] = ⟨["tagged"]⟩ ∧
    (r.select [widget]).toOption.map Selection.key = some ⟨["string", "array"]⟩ ∧
    r.table = r'.table ∧ r.select [widget] = r'.select [widget] := by
  have hdefaults : ∀ declared ∈ Resolver.twoPadded.toList, ∀ v ∈ declared.2.defaults,
      tagging.Spares v := by decide +kernel
  have hcustom : ∀ name change, .custom name change ∈ (standard : Engine Unit).stages →
      (Stage.custom name change).Preserves (fun e => ∀ v ∈ e.defaults, tagging.Spares v) := by
    simp [standard, Stage.standard]
  obtain ⟨r, hr, h⟩ : ∃ r, standard.compile Resolver.twoPadded = .ok r ∧
      (r.typeKey [.object [("tag", .null)]], (r.select [widget]).toOption.map Selection.key) =
        (⟨["object"]⟩, some ⟨["string", "array"]⟩) := exists_ok_of_toOption (by decide +kernel)
  obtain ⟨hkey, hselected⟩ := Prod.ext_iff.1 h
  obtain ⟨error, herror, _⟩ | ⟨r₀, r', hr₀, hr', hclassifier, htable, hsame⟩ :=
    compile_extended (.inr rfl) hdefaults hcustom
  · rw [hr] at herror
    cases herror
  · rw [hr] at hr₀
    cases hr₀
    refine ⟨r, r', hr, hr', hkey, ?_, hselected, htable, (hsame [widget] ?_).1⟩
    · rw [Resolver.typeKey, hclassifier]
      decide +kernel
    · decide +kernel

end Engine

end ShapeDispatch
