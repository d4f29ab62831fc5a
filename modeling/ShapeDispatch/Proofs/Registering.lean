import Mathlib.Data.List.Induction
import ShapeDispatch.Classifier.Standard

/-!
Registering rules. Of the rules of a classifier, those that ask for a constructor come first, and what is
registered later keeps it so: a constructor rule goes behind the constructor rules there are, a
predicate behind everything (`Arranged.register`, `Arranged.registerAll`). So no predicate has a say in a
value whose constructor has a rule, and one that is registered only in values that no rule matched
(`Classifier.registerAll_ordered`).
-/

namespace ShapeDispatch
variable {β : Type}

/-- The constructor rules among the rules. -/
def exactRules (rules : List (ClassifierRule β)) : List (ClassifierRule β) :=
  rules.filter ClassifierRule.isExact

/-- The predicates among the rules. -/
def predicateRules (rules : List (ClassifierRule β)) : List (ClassifierRule β) :=
  rules.filter (fun rule => !rule.isExact)

/-- A rule goes in front of rules of which none asks for a constructor. -/
theorem insertBehindExact_of_predicates (rule : ClassifierRule β) {rules : List (ClassifierRule β)}
    (h : ∀ r ∈ rules, r.isExact = false) : insertBehindExact rule rules = rule :: rules := by
  cases rules with
  | nil => rfl
  | cons r rest =>
    have hnone : ¬(r :: rest).any ClassifierRule.isExact = true := by simpa using h
    rw [insertBehindExact, if_neg hnone]

/-- A rule goes right behind constructor rules that have only predicates behind them. -/
theorem insertBehindExact_append (rule : ClassifierRule β) {predicates : List (ClassifierRule β)}
    (hpredicates : ∀ r ∈ predicates, r.isExact = false) : ∀ {exacts : List (ClassifierRule β)},
      (∀ r ∈ exacts, r.isExact = true) →
        insertBehindExact rule (exacts ++ predicates) = exacts ++ rule :: predicates
  | [], _ => insertBehindExact_of_predicates rule hpredicates
  | first :: exacts, hexacts => by
    obtain ⟨hfirst, hexacts⟩ := List.forall_mem_cons.1 hexacts
    have hany : (first :: (exacts ++ predicates)).any ClassifierRule.isExact = true := by
      simp [hfirst]
    rw [List.cons_append, insertBehindExact, if_pos hany,
      insertBehindExact_append rule hpredicates hexacts, List.cons_append]

namespace Classifier

/-- Registers rules, one after the other. -/
def registerAll (c : Classifier β) (added : List (ClassifierRule β)) : Classifier β :=
  added.foldl register c

/-- The rules are these constructor rules and, behind them, these predicates. -/
structure Arranged (c : Classifier β) (exacts predicates : List (ClassifierRule β)) : Prop where
  rules_eq : c.rules = exacts ++ predicates
  isExact_eq_true : ∀ r ∈ exacts, r.isExact = true
  isExact_eq_false : ∀ r ∈ predicates, r.isExact = false

namespace Arranged
variable {c : Classifier β} {exacts predicates : List (ClassifierRule β)}

theorem of_filter (h : c.rules = exactRules c.rules ++ predicateRules c.rules) :
    c.Arranged (exactRules c.rules) (predicateRules c.rules) where
  rules_eq := h
  isExact_eq_true := fun r hr => (List.mem_filter.1 hr).2
  isExact_eq_false := by
    intro r hr
    simpa using (List.mem_filter.1 hr).2

/-- One rule more. -/
theorem register (h : c.Arranged exacts predicates) (rule : ClassifierRule β) :
    (c.register rule).Arranged (exacts ++ exactRules [rule])
      (predicates ++ predicateRules [rule]) := by
  obtain ⟨hrules, hexacts, hpredicates⟩ := h
  cases hrule : rule.isExact with
  | true =>
    have hexact : exactRules [rule] = [rule] := by simp [exactRules, hrule]
    have hnone : predicateRules [rule] = [] := by simp [predicateRules, hrule]
    rw [Classifier.register, if_pos hrule, hrules, hexact, hnone, List.append_nil]
    refine ⟨?_, ?_, hpredicates⟩
    · rw [insertBehindExact_append rule hpredicates hexacts, List.append_assoc,
        List.singleton_append]
    · intro r hr
      rcases List.mem_append.1 hr with hr | hr
      · exact hexacts r hr
      · rwa [List.mem_singleton.1 hr]
  | false =>
    have hnone : exactRules [rule] = [] := by simp [exactRules, hrule]
    have hpredicate : predicateRules [rule] = [rule] := by simp [predicateRules, hrule]
    rw [Classifier.register, if_neg (by simp [hrule]), hrules, hnone, hpredicate, List.append_nil]
    refine ⟨List.append_assoc .., hexacts, ?_⟩
    intro r hr
    rcases List.mem_append.1 hr with hr | hr
    · exact hpredicates r hr
    · rwa [List.mem_singleton.1 hr]

/-- Any number of rules more. -/
theorem registerAll (h : c.Arranged exacts predicates) (added : List (ClassifierRule β)) :
    (c.registerAll added).Arranged (exacts ++ exactRules added)
      (predicates ++ predicateRules added) := by
  induction added using List.reverseRecOn with
  | nil => simpa [Classifier.registerAll, exactRules, predicateRules] using h
  | append_singleton added rule ih =>
    rw [Classifier.registerAll, List.foldl_append, exactRules, predicateRules, List.filter_append,
      List.filter_append, ← List.append_assoc, ← List.append_assoc]
    exact ih.register rule

end Arranged

variable {c : Classifier β} {v : Value β}

theorem classify_of_find? {rule : ClassifierRule β} (hv : reportedToken? v = none)
    (hrule : c.rules.find? (fun rule => rule.isMatch v) = some rule) :
    c.classify v = rule.token := by
  simp only [classify, hv, hrule]

/-- A constructor rule that matches a value asks for the constructor of the value. -/
theorem exists_exact_of_isMatch {rule : ClassifierRule β} (hexact : rule.isExact = true)
    {wanted : Constructor} (hbuilt : v.constructor? = some wanted) (h : rule.isMatch v = true) :
    ∃ token, rule = .exact token wanted := by
  cases rule with
  | predicate token test => cases hexact
  | exact token other =>
    have hsame : wanted = other := by
      simpa [ClassifierRule.isMatch, ClassifierRule.holds, hbuilt] using h
    exact ⟨token, by rw [hsame]⟩

theorem isMatch_exact {wanted : Constructor} (hbuilt : v.constructor? = some wanted)
    (token : String) : (ClassifierRule.exact token wanted).isMatch v = true := by
  simp [ClassifierRule.isMatch, ClassifierRule.holds, hbuilt]

/-- A value whose constructor has a rule gets the token of the first such rule, because predicates are
asked later. -/
theorem Arranged.classify_eq {exacts predicates : List (ClassifierRule β)}
    (h : c.Arranged exacts predicates) (hv : reportedToken? v = none) {wanted : Constructor}
    (hbuilt : v.constructor? = some wanted) (hmem : ∃ token, .exact token wanted ∈ c.rules) :
    ∃ before token behind, c.rules = before ++ .exact token wanted :: behind ∧
      (∀ other, .exact other wanted ∉ before) ∧ c.classify v = token := by
  obtain ⟨hrules, hexacts, hpredicates⟩ := h
  obtain ⟨token, hmem⟩ := hmem
  have hmem : .exact token wanted ∈ exacts := by
    rw [hrules] at hmem
    rcases List.mem_append.1 hmem with hmem | hmem
    · exact hmem
    · cases hpredicates _ hmem
  obtain ⟨rule, hfind⟩ : ∃ rule, exacts.find? (fun rule => rule.isMatch v) = some rule :=
    Option.isSome_iff_exists.1 (List.find?_isSome.2 ⟨_, hmem, isMatch_exact hbuilt token⟩)
  obtain ⟨hmatch, before, behind, rfl, hbefore⟩ := List.find?_eq_some_iff_append.1 hfind
  obtain ⟨first, rfl⟩ := exists_exact_of_isMatch (hexacts rule (by simp)) hbuilt hmatch
  refine ⟨before, first, behind ++ predicates, by simp [hrules], ?_, ?_⟩
  · intro other hother
    simpa [isMatch_exact hbuilt other] using hbefore _ hother
  · have hfound : c.rules.find? (fun rule => rule.isMatch v) = some (.exact first wanted) := by
      rw [hrules, List.find?_append, hfind, Option.some_or]
    exact classify_of_find? hv hfound

/-- A predicate that is registered is asked last. -/
theorem rules_register_predicate (c : Classifier β) (token : String) (test : Predicate β) :
    (c.register (.predicate token test)).rules = c.rules ++ [.predicate token test] := rfl

/-- A predicate that is registered has a say only in values that no rule matched. -/
theorem classify_register_predicate {token : String} {test : Predicate β}
    (h : (c.register (.predicate token test)).classify v ≠ c.classify v) :
    reportedToken? v = none ∧ (∀ rule ∈ c.rules, rule.isMatch v = false) ∧
      (c.register (.predicate token test)).classify v = token := by
  unfold classify at h ⊢
  rw [rules_register_predicate, List.find?_append] at h ⊢
  cases hv : reportedToken? v with
  | some reported => simp [hv] at h
  | none =>
    cases hfind : c.rules.find? (fun rule => rule.isMatch v) with
    | some rule => simp [hv, hfind] at h
    | none =>
      refine ⟨rfl, by simpa using hfind, ?_⟩
      cases hmatch : (ClassifierRule.predicate token test).isMatch v with
      | false => simp [hv, hfind, hmatch] at h
      | true => simp [hmatch, ClassifierRule.token]

/-- ORDER OF RULES: rules that are registered with the standard classifier or the empty one stand in this
order: the constructor rules of the base, those registered, the predicates of the base, those registered.
A value that is matched against rules and whose constructor has a rule gets the token of the first such
rule, whatever the predicates say; and a predicate that is registered further changes, to its own, only the
token of values that no rule matched. -/
theorem registerAll_ordered {base : Classifier β} (hbase : base = standard ∨ base = empty)
    (added : List (ClassifierRule β)) :
    (base.registerAll added).rules = exactRules base.rules ++ exactRules added ++
      (predicateRules base.rules ++ predicateRules added) ∧
    (∀ v wanted, reportedToken? v = none → v.constructor? = some wanted →
      (∃ token, .exact token wanted ∈ (base.registerAll added).rules) →
      ∃ before token behind,
        (base.registerAll added).rules = before ++ .exact token wanted :: behind ∧
        (∀ other, .exact other wanted ∉ before) ∧
        (base.registerAll added).classify v = token) ∧
    ∀ token test v, ((base.registerAll added).register (.predicate token test)).classify v ≠
        (base.registerAll added).classify v →
      reportedToken? v = none ∧ (∀ rule ∈ (base.registerAll added).rules, rule.isMatch v = false) ∧
        ((base.registerAll added).register (.predicate token test)).classify v = token := by
  have hordered : base.rules = exactRules base.rules ++ predicateRules base.rules := by
    rcases hbase with rfl | rfl
    · rfl
    · rfl
  have harranged := (Arranged.of_filter hordered).registerAll added
  refine ⟨harranged.rules_eq, ?_, ?_⟩
  · intro v wanted hv hbuilt hmem
    exact harranged.classify_eq hv hbuilt hmem
  · intro token test v hchange
    exact classify_register_predicate hchange

/-- A predicate, then two rules for one constructor. -/
def landmarks : List (ClassifierRule Unit) :=
  [.predicate "tagged" (fun v _ _ => (v.property? "tag").isSome), .exact "point" (.named "Point"),
    .exact "place" (.named "Point")]

/-- A point that the predicate matches too. -/
def taggedPoint : Value Unit := .host "Point" [("tag", .null)] [] none

theorem registerAll_ordered_landmarks :
    (standard.registerAll landmarks).rules.map ClassifierRule.token = ["string", "number", "boolean",
      "date", "regexp", "point", "place", "function", "callable", "array", "event", "element",
      "document", "window", "tagged"] ∧
    (∃ before behind, (standard.registerAll landmarks).rules =
      before ++ .exact "point" (.named "Point") :: behind) ∧
    (standard.registerAll landmarks).classify taggedPoint = "point" ∧
    ∀ rule ∈ (standard.registerAll landmarks).rules, rule.isMatch .null = false := by
  obtain ⟨hrules, hclassify, hfurther⟩ := registerAll_ordered (.inl rfl) landmarks
  have hpoint : (standard.registerAll landmarks).classify taggedPoint = "point" := by decide +kernel
  have hplace : .exact "place" (.named "Point") ∈ exactRules landmarks := by
    simp [exactRules, ClassifierRule.isExact, landmarks]
  obtain ⟨before, token, behind, hsplit, _, htoken⟩ := hclassify taggedPoint (.named "Point") rfl rfl
    ⟨"place", hrules ▸ List.mem_append_left _ (List.mem_append_right _ hplace)⟩
  rw [hpoint] at htoken
  subst htoken
  -- a predicate that holds of everything changes the token of null
  have hnull := hfurther "anything" (fun _ _ _ => true) .null (by decide +kernel)
  exact ⟨rfl, ⟨before, behind, hsplit⟩, hpoint, hnull.2.1⟩

end Classifier

end ShapeDispatch
