/-
Sqlate/StatementParameters.lean

What the driver has to know of a statement.

The driver gets the text of an execution and the values of the placeholders that it
finds there.  This is enough for the server: what is read from a text uses no other
placeholders than those among its words, and there are no quotes in it that could
hide them (`perform_execution`).
-/
import Sqlate.QueryCache
import Sqlate.StatementServer
import Sqlate.TableReading

namespace Sqlate

open Reader (Takes)

/-! ### The words of what is read -/

def isQuote (w : QString) : Bool := w = latin1 "'" || w = latin1 "\""

/-- The words that are read as values, and among what they stand. -/
structure Within (values u : List QString) : Prop where
  values_subset : values ⊆ u
  noQuotes : ∀ w ∈ u, isQuote w = false

theorem Within.append {values values' u v : List QString} (h : Within values u)
    (h' : Within values' v) : Within (values ++ values') (u ++ v) where
  values_subset := by
    intro w hw
    obtain hw | hw := List.mem_append.1 hw
    · exact List.mem_append_left _ (h.values_subset hw)
    · exact List.mem_append_right _ (h'.values_subset hw)
  noQuotes := List.forall_mem_append.2 ⟨h.noQuotes, h'.noQuotes⟩

/-- Words that are no values. -/
theorem Within.words {u : List QString} (h : ∀ w ∈ u, isQuote w = false) : Within [] u :=
  ⟨List.nil_subset u, h⟩

theorem Within.self {u : List QString} (h : ∀ w ∈ u, isQuote w = false) : Within u u :=
  ⟨List.Subset.refl u, h⟩

theorem isQuote_of_isName {w : QString} (h : isName w = true) : isQuote w = false := by
  rw [isQuote, Bool.or_eq_false_iff, decide_eq_false_iff_not, decide_eq_false_iff_not]
  constructor
  · rintro rfl
    revert h
    decide
  · rintro rfl
    revert h
    decide

/-! ### Conditions -/

theorem readOperand_eq_append {ws rest operand : List QString}
    (h : readOperand ws = some (operand, rest)) : ws = operand ++ rest ∧ IsOperand operand := by
  cases ws with
  | nil => cases h
  | cons w ws =>
      unfold readOperand at h
      simp only at h
      split_ifs at h with hw
      cases ws with
      | nil =>
          obtain ⟨rfl, rfl⟩ := Prod.mk.inj (Option.some.inj h)
          exact ⟨rfl, .name hw⟩
      | cons o ws' =>
          simp only at h
          split_ifs at h with ho
          · subst ho
            cases ws' with
            | nil => cases h
            | cons v ws'' =>
                simp only at h
                split_ifs at h with hv
                · subst hv
                  obtain ⟨rfl, rfl⟩ := Prod.mk.inj (Option.some.inj h)
                  exact ⟨rfl, .call hw⟩
                · cases ws'' with
                  | nil => cases h
                  | cons c ws''' =>
                      simp only at h
                      split_ifs at h with hc
                      rw [Bool.and_eq_true, decide_eq_true_eq] at hc
                      obtain ⟨hname, rfl⟩ := hc
                      obtain ⟨rfl, rfl⟩ := Prod.mk.inj (Option.some.inj h)
                      exact ⟨rfl, .callName hw hname⟩
          · obtain ⟨rfl, rfl⟩ := Prod.mk.inj (Option.some.inj h)
            exact ⟨rfl, .name hw⟩

theorem IsOperand.noQuotes {operand : List QString} (h : IsOperand operand) :
    ∀ w ∈ operand, isQuote w = false := by
  have hopen : isQuote (latin1 "(") = false := by decide
  have hclose : isQuote (latin1 ")") = false := by decide
  cases h with
  | name hw => simp [isQuote_of_isName hw]
  | call hw => simp [isQuote_of_isName hw, hopen, hclose]
  | callName hw hv => simp [isQuote_of_isName hw, isQuote_of_isName hv, hopen, hclose]

/-- A word that is told by its lower case is no quote. -/
theorem isQuote_of_lower {w v : QString} (h : lower w = v) (h' : v ≠ latin1 "'")
    (h'' : v ≠ latin1 "\"") : isQuote w = false := by
  have hsingle : lower (latin1 "'") = latin1 "'" := by decide
  have hdouble : lower (latin1 "\"") = latin1 "\"" := by decide
  rw [isQuote, Bool.or_eq_false_iff, decide_eq_false_iff_not, decide_eq_false_iff_not]
  constructor
  · rintro rfl
    exact h' (h.symm.trans hsingle)
  · rintro rfl
    exact h'' (h.symm.trans hdouble)

theorem readCompareOperator_eq_append {ws rest : List QString} {op : CompareOperator}
    (h : readCompareOperator ws = some (op, rest)) :
    ∃ u, ws = u ++ rest ∧ ∀ w ∈ u, isQuote w = false := by
  have hsymbols : ∀ w op, (w, op) ∈ compareSymbols → isQuote w = false := by
    intro w op hmem
    have hall : compareSymbols.all (fun x => !isQuote x.1) = true := by decide
    simpa using List.all_eq_true.1 hall (w, op) hmem
  cases ws with
  | nil => cases h
  | cons w ws =>
      unfold readCompareOperator at h
      simp only at h
      split at h
      case h_1 op' hlookup =>
        obtain ⟨rfl, rfl⟩ := Prod.mk.inj (Option.some.inj h)
        obtain ⟨front, back, hsplit, -⟩ := List.lookup_eq_some_iff.1 hlookup
        have hmem : (w, op') ∈ compareSymbols := by
          rw [hsplit]
          simp
        exact ⟨[w], rfl, by simpa using hsymbols w op' hmem⟩
      case h_2 =>
        split_ifs at h with hlike his
        · obtain ⟨rfl, rfl⟩ := Prod.mk.inj (Option.some.inj h)
          have hw := isQuote_of_lower hlike (by decide) (by decide)
          exact ⟨[w], rfl, by simpa using hw⟩
        · have hw := isQuote_of_lower his (by decide) (by decide)
          cases ws with
          | nil =>
              obtain ⟨rfl, rfl⟩ := Prod.mk.inj (Option.some.inj h)
              exact ⟨[w], rfl, by simpa using hw⟩
          | cons v ws =>
              simp only at h
              split_ifs at h with hnot
              · obtain ⟨rfl, rfl⟩ := Prod.mk.inj (Option.some.inj h)
                have hv := isQuote_of_lower hnot (by decide) (by decide)
                exact ⟨[w, v], rfl, by simp [hw, hv]⟩
              · obtain ⟨rfl, rfl⟩ := Prod.mk.inj (Option.some.inj h)
                exact ⟨[w], rfl, by simpa using hw⟩

/-- The words of the operands. -/
def operandWords (e : ConnExpr ReadComparison) : List QString :=
  e.atoms.flatMap fun a => a.left ++ a.right

theorem conditionGrammar_within {ws : List QString} {e : ConnExpr ReadComparison}
    (h : conditionGrammar.read ws = some e) : Within (operandWords e) ws := by
  have hinductive : conditionGrammar.Inductive fun ts rest e =>
      ∃ u, ts = u ++ rest ∧ Within (operandWords e) u := by
    constructor
    case atom =>
      intro ts a rest hread
      obtain ⟨⟨left, ws⟩, hleft, hread⟩ := Option.bind_eq_some_iff.1 hread
      obtain ⟨⟨op, ws'⟩, hop, hread⟩ := Option.bind_eq_some_iff.1 hread
      obtain ⟨⟨right, ws''⟩, hright, hread⟩ := Option.bind_eq_some_iff.1 hread
      obtain ⟨rfl, rfl⟩ := Prod.mk.inj (Option.some.inj hread)
      obtain ⟨rfl, hisLeft⟩ := readOperand_eq_append hleft
      obtain ⟨u, hws, hu⟩ := readCompareOperator_eq_append hop
      obtain ⟨hws', hisRight⟩ := readOperand_eq_append hright
      have hleftWithin := Within.self hisLeft.noQuotes
      have hrightWithin := Within.self hisRight.noQuotes
      refine ⟨left ++ (u ++ right), ?_, ?_⟩
      · rw [hws, hws', List.append_assoc, List.append_assoc]
      · have hwithin := hleftWithin.append ((Within.words hu).append hrightWithin)
        simpa [operandWords, ConnExpr.atoms] using hwithin
    case parentheses =>
      rintro t _ t' rest e hopening ⟨u, hu, hwithin⟩ hclosing
      have ht : t = latin1 "(" := of_decide_eq_true hopening
      have ht' : t' = latin1 ")" := of_decide_eq_true hclosing
      have hopen : Within [] [latin1 "("] := Within.words (by decide)
      have hclose : Within [] [latin1 ")"] := Within.words (by decide)
      refine ⟨[t] ++ (u ++ [t']), ?_, ?_⟩
      · rw [hu, List.append_assoc, List.append_assoc]
        rfl
      · have hall := hopen.append (hwithin.append hclose)
        rw [ht, ht']
        simpa using hall
    case connective =>
      rintro op ts t us rest e f ⟨u, hu, hwithin⟩ hconnective ⟨v, hv, hwithin'⟩
      have ht : isQuote t = false := by
        cases op with
        | and =>
            have hlower : lower t = latin1 "and" := of_decide_eq_true hconnective
            exact isQuote_of_lower hlower (by decide) (by decide)
        | or =>
            have hlower : lower t = latin1 "or" := of_decide_eq_true hconnective
            exact isQuote_of_lower hlower (by decide) (by decide)
      have hword : Within [] [t] := Within.words (by simpa using ht)
      refine ⟨u ++ ([t] ++ v), ?_, ?_⟩
      · rw [hu, hv, List.append_assoc, List.append_assoc]
        rfl
      · have hall := hwithin.append (hword.append hwithin')
        simpa [operandWords, ConnExpr.atoms] using hall
  obtain ⟨u, hu, hwithin⟩ := hinductive.read h
  rwa [hu, List.append_nil]

/-! ### Statements -/

/-- The words that are read as values. -/
def Modification.valueWords : Modification → List QString
  | insertDefaults _ => []
  | insert _ _ values => values.flatMap Expression.yield
  | update _ _ assignments condition =>
      assignments.flatMap assignmentYield ++ condition.toList.flatMap operandWords
  | delete _ _ condition => condition.toList.flatMap operandWords

theorem PlainName.isQuote (n : PlainName) : isQuote n.text = false := isQuote_of_isName n.isName

theorem Expression.noQuotes (e : Expression) : ∀ w ∈ e.yield, isQuote w = false := by
  cases e with
  | parameter n => simpa [Expression.yield] using isQuote_of_isName (isName_placeholderName n)
  | now => decide
  | default => decide

theorem assignment_noQuotes (a : Assignment) : ∀ w ∈ assignmentYield a, Sqlate.isQuote w = false := by
  have hequals : Sqlate.isQuote (latin1 "=") = false := by decide
  intro w hw
  rw [assignmentYield, List.append_assoc] at hw
  obtain hw | hw := List.mem_append.1 hw
  · rw [List.mem_singleton.1 hw]
    exact a.1.isQuote
  · obtain hw | hw := List.mem_append.1 hw
    · rw [List.mem_singleton.1 hw]
      exact hequals
    · exact a.2.noQuotes w hw

/-- The words of a list, and the commas between. -/
theorem mem_flatMap_or_eq_of_mem_commaSeparated {parts : List (List QString)} {w : QString}
    (h : w ∈ commaSeparated parts) : w ∈ parts.flatten ∨ w = latin1 "," := by
  induction parts with
  | nil => cases h
  | cons part parts ih =>
      cases parts with
      | nil =>
          rw [commaSeparated_singleton] at h
          exact .inl (List.mem_append_left _ h)
      | cons part' parts =>
          rw [commaSeparated_cons_cons] at h
          obtain h | h := List.mem_append.1 h
          · exact .inl (List.mem_append_left _ h)
          · obtain h | h := List.mem_append.1 h
            · exact .inr (List.mem_singleton.1 h)
            · exact (ih h).imp_left (List.mem_append_right _)

theorem commaSeparated_noQuotes {parts : List (List QString)}
    (h : ∀ part ∈ parts, ∀ w ∈ part, isQuote w = false) : ∀ w ∈ commaSeparated parts, isQuote w = false := by
  intro w hw
  obtain hmem | rfl := mem_flatMap_or_eq_of_mem_commaSeparated hw
  · obtain ⟨part, hpart, hw⟩ := List.mem_flatten.1 hmem
    exact h part hpart w hw
  · decide

/-- A list of values, with commas between them. -/
theorem commaSeparated_within {α : Type} (f : α → List QString)
    (h : ∀ a, ∀ w ∈ f a, isQuote w = false) (as : List α) :
    Within (as.flatMap f) (commaSeparated (as.map f)) where
  values_subset := by
    intro w hw
    obtain ⟨a, ha, hw⟩ := List.mem_flatMap.1 hw
    exact mem_commaSeparated (List.mem_map_of_mem ha) hw
  noQuotes := by
    apply commaSeparated_noQuotes
    rw [List.forall_mem_map]
    exact fun a _ => h a

theorem PlainName.read_takes : Takes (fun _ u => Within [] u) PlainName.read := by
  apply PlainName.inverts.sound.takes
  intro n
  apply Within.words
  simpa using n.isQuote

theorem readOnly_takes : Takes (fun _ u => Within [] u) readOnly := by
  apply Takes.ifNext
  · exact Takes.pure (Within.words (by decide))
  · exact Takes.pure (Within.words (List.forall_mem_nil _))

theorem readWhere_takes :
    Takes (fun condition u => Within (condition.toList.flatMap operandWords) u) readWhere := by
  have hcondition : Takes (fun e u => Within (operandWords e) u) readCondition := by
    intro ls e rest hread
    obtain ⟨e', hgrammar, heq⟩ := Option.map_eq_some_iff.1 hread
    obtain ⟨rfl, rfl⟩ := Prod.mk.inj heq
    exact ⟨ls, (List.append_nil ls).symm, conditionGrammar_within hgrammar⟩
  have hwhere : Within [] [latin1 "WHERE"] := Within.words (by decide)
  apply Takes.ifNext
  · apply hcondition.bind
    intro e u he
    apply Takes.pure
    simpa using hwhere.append he
  · exact Takes.pure (Within.words (List.forall_mem_nil _))

namespace Modification

theorem readInsert_takes : Takes (fun m u => Within m.valueWords (latin1 "INSERT" :: u)) readInsert := by
  have hinsert : Within [] [latin1 "INSERT"] := Within.words (by decide)
  have hinto : Within [] (kw "INTO") := Within.words (by decide)
  have hcolumns : Takes (fun _ u => Within [] u) (Reader.separated (latin1 ",") PlainName.read) := by
    apply (PlainName.inverts.separated (latin1 ",") fun _ => trivial).sound.takes
    intro columns
    apply Within.words
    apply commaSeparated_noQuotes
    rw [List.forall_mem_map]
    intro n _
    simpa using n.isQuote
  have hvalues : Takes (fun values u => Within ((values.1 :: values.2).flatMap Expression.yield) u)
      (Reader.separated (latin1 ",") Expression.read) := by
    apply (Expression.inverts.separated (latin1 ",") fun _ => trivial).sound.takes
    intro values
    exact commaSeparated_within Expression.yield Expression.noQuotes _
  apply Takes.words
  apply PlainName.read_takes.bind
  intro table u hu
  have hfront := hinsert.append (hinto.append hu)
  apply Takes.ifNext
  · have hdefault : Within [] [latin1 "DEFAULT"] := Within.words (by decide)
    have hvaluesWord : Within [] (kw "VALUES") := Within.words (by decide)
    apply Takes.words
    apply Takes.pure
    have hall := hfront.append (hdefault.append hvaluesWord)
    simpa [valueWords] using hall
  · have hopen : Within [] (kw "(") := Within.words (by decide)
    have hbetween : Within [] (kw ")" ++ kw "VALUES" ++ kw "(") := Within.words (by decide)
    have hclose : Within [] (kw ")") := Within.words (by decide)
    apply Takes.words
    apply hcolumns.bind
    intro columns u' hu'
    apply Takes.words
    apply hvalues.bind
    intro values v hv
    apply Takes.words
    apply Takes.pure
    have hall := hfront.append (hopen.append (hu'.append (hbetween.append (hv.append hclose))))
    simpa [valueWords] using hall

theorem readUpdate_takes : Takes (fun m u => Within m.valueWords (latin1 "UPDATE" :: u)) readUpdate := by
  have hupdate : Within [] [latin1 "UPDATE"] := Within.words (by decide)
  have hset : Within [] (kw "SET") := Within.words (by decide)
  have hassignments : Takes (fun as u => Within ((as.1 :: as.2).flatMap assignmentYield) u)
      (Reader.separated (latin1 ",") readAssignment) := by
    apply (readAssignment_inverts.separated (latin1 ",") fun _ => trivial).sound.takes
    intro assignments
    exact commaSeparated_within assignmentYield assignment_noQuotes _
  apply readOnly_takes.bind
  intro only u hu
  apply PlainName.read_takes.bind
  intro table u' hu'
  apply Takes.words
  apply hassignments.bind
  intro assignments v hv
  apply readWhere_takes.bind
  intro condition v' hv'
  apply Takes.pure
  have hall := hupdate.append (hu.append (hu'.append (hset.append (hv.append hv'))))
  simpa [valueWords] using hall

theorem readDelete_takes : Takes (fun m u => Within m.valueWords (latin1 "DELETE" :: u)) readDelete := by
  have hdelete : Within [] [latin1 "DELETE"] := Within.words (by decide)
  have hfrom : Within [] (kw "FROM") := Within.words (by decide)
  apply Takes.words
  apply readOnly_takes.bind
  intro only u hu
  apply PlainName.read_takes.bind
  intro table u' hu'
  apply readWhere_takes.bind
  intro condition v hv
  apply Takes.pure
  have hall := hdelete.append (hfrom.append (hu.append (hu'.append hv)))
  simpa [valueWords] using hall

/-- **What is read uses no other values than those in the text**, and there are no
quotes in it. -/
theorem within_of_read {ws : List QString} {m : Modification} (h : read ws = some m) :
    Within m.valueWords ws := by
  apply Takes.whole (R := fun (m : Modification) u => Within m.valueWords u) _ h
  apply Takes.byWord
  intro x hx
  simp only [List.mem_cons, List.not_mem_nil, or_false] at hx
  obtain rfl | rfl | rfl := hx
  · exact readInsert_takes
  · exact readUpdate_takes
  · exact readDelete_takes

end Modification

/-! ### What a statement depends on -/

section
variable (S : Server) {parameters parameters' : Parameters}

theorem operandValue_congr {scope : Scope} {ws : List QString} {o : Operand}
    (ho : operandOf scope ws = some o)
    (h : ∀ w ∈ ws, isPlaceholder w → parameters w = parameters' w) (r : Record) :
    S.operandValue parameters r o = S.operandValue parameters' r o := by
  cases o with
  | parameter p =>
      have hp : p ∈ ws ∧ isPlaceholder p = true := by
        match ws, ho with
        | [w], ho =>
            rw [operandOf] at ho
            split_ifs at ho with hw hnull
            · obtain rfl := Operand.parameter.inj (Option.some.inj ho)
              exact ⟨List.mem_singleton_self _, hw⟩
            · cases ho
            · obtain ⟨c, -, hc⟩ := Option.map_eq_some_iff.1 ho
              cases hc
        | [f, _, _], ho =>
            rw [operandOf] at ho
            split_ifs at ho
            cases ho
        | [f, _, w, _], ho =>
            rw [operandOf] at ho
            split_ifs at ho
            obtain ⟨c, -, hc⟩ := Option.map_eq_some_iff.1 ho
            cases hc
      show (parameters p).getD _ = (parameters' p).getD _
      rw [h p hp.1 hp.2]
  | _ => rfl

theorem truth_congr {scope : Scope} {a : ReadComparison}
    (h : ∀ w ∈ a.left ++ a.right, isPlaceholder w → parameters w = parameters' w) (r : Record) :
    S.truth parameters scope r a = S.truth parameters' scope r a := by
  rw [Server.truth, Server.truth]
  cases hx : operandOf scope a.left with
  | none => rfl
  | some x =>
      cases hy : operandOf scope a.right with
      | none => rfl
      | some y =>
          show S.compare _ _ _ = S.compare _ _ _
          rw [operandValue_congr S hx fun w hw => h w (List.mem_append_left _ hw),
            operandValue_congr S hy fun w hw => h w (List.mem_append_right _ hw)]

theorem eval_congr_atoms {α β : Type} [Lattice β] {f g : α → β} (e : ConnExpr α)
    (h : ∀ a ∈ e.atoms, f a = g a) : e.eval f = e.eval g := by
  induction e with
  | atom a => exact h a (List.mem_singleton_self a)
  | apply op e e' ih ih' =>
      rw [ConnExpr.eval, ConnExpr.eval, ih fun a ha => h a (List.mem_append_left _ ha),
        ih' fun a ha => h a (List.mem_append_right _ ha)]

theorem selects_congr (only : Bool) (table : PlainName) {condition : Option (ConnExpr ReadComparison)}
    (h : ∀ w ∈ condition.toList.flatMap operandWords, isPlaceholder w → parameters w = parameters' w)
    (x : QString × Record) :
    S.selects parameters only table condition x = S.selects parameters' only table condition x := by
  rw [Server.selects, Server.selects]
  cases condition with
  | none => rfl
  | some e =>
      have heval : e.eval (S.truth parameters (.table table.text) x.2)
          = e.eval (S.truth parameters' (.table table.text) x.2) := by
        apply eval_congr_atoms
        intro a ha
        apply truth_congr
        intro w hw
        apply h
        rw [Option.toList_some, List.flatMap_singleton]
        exact List.mem_flatMap.2 ⟨a, ha, hw⟩
      show (_ && decide (e.eval _ = _)) = (_ && decide (e.eval _ = _))
      rw [heval]

theorem expressionValue_congr {table column : QString} {e : Expression}
    (h : ∀ w ∈ e.yield, isPlaceholder w → parameters w = parameters' w) :
    S.expressionValue parameters table column e = S.expressionValue parameters' table column e := by
  cases e with
  | parameter n =>
      show (parameters _).getD _ = (parameters' _).getD _
      rw [h _ (List.mem_singleton_self _) (isPlaceholder_placeholderName n)]
  | _ => rfl

theorem assign_congr {table : QString} {assignments : List Assignment}
    (h : ∀ a ∈ assignments, ∀ w ∈ a.2.yield, isPlaceholder w → parameters w = parameters' w)
    (r : Record) :
    S.assign parameters table assignments r = S.assign parameters' table assignments r := by
  induction assignments generalizing r with
  | nil => rfl
  | cons a assignments ih =>
      have hrest := ih fun b hb => h b (List.mem_cons_of_mem a hb)
      show S.assign parameters table assignments (Function.update r _ (S.expressionValue parameters _ _ _))
        = S.assign parameters' table assignments (Function.update r _ (S.expressionValue parameters' _ _ _))
      rw [expressionValue_congr S (h a List.mem_cons_self), hrest]

/-- A statement depends on the placeholders among its words only. -/
theorem execute_congr {m : Modification}
    (h : ∀ w ∈ m.valueWords, isPlaceholder w → parameters w = parameters' w) (rows : Rows) :
    m.execute S parameters rows = m.execute S parameters' rows := by
  cases m with
  | insertDefaults table => rfl
  | insert table columns values =>
      have hassign : ∀ r, S.assign parameters table.folded (columns.zip values) r
          = S.assign parameters' table.folded (columns.zip values) r := by
        apply assign_congr
        intro a ha w hw
        exact h w (List.mem_flatMap.2 ⟨a.2, (List.of_mem_zip ha).2, hw⟩)
      rw [Modification.execute, Modification.execute, hassign]
  | update only table assignments condition =>
      have hassign : ∀ t r, S.assign parameters t assignments r = S.assign parameters' t assignments r := by
        intro t
        apply assign_congr
        intro a ha w hw
        apply h w (List.mem_append_left _ (List.mem_flatMap.2 ⟨a, ha, ?_⟩))
        exact List.mem_append_right _ hw
      have hselects := selects_congr S only table
        fun w hw => h w (List.mem_append_right _ hw)
      simp only [Modification.execute, hassign, hselects]
  | delete only table condition =>
      have hselects := selects_congr S only table h
      simp only [Modification.execute, hselects]

end

/-! ### Executions -/

/-- What the driver has been told about a placeholder. -/
def Execution.boundValue (x : Execution) (w : QString) : Option QVariant := (x.values.lookup w).join

/-- An execution on the server; a statement that is refused leaves the rows as they are, and
so does one that is no INSERT, UPDATE or DELETE. -/
def Server.perform (S : Server) (rows : Rows) (x : Execution) : Rows :=
  ((Modification.read (words x.text)).bind (Modification.execute S x.boundValue rows)).getD rows

section
variable [SqlDriver]

/-- An execution of a statement object, as the driver sees it. -/
def QSqlResult.execution (r : QSqlResult) : Execution :=
  ⟨r.lastQuery, (SqlDriver.placeholders r.lastQuery).map fun n => (n, r.boundValue n)⟩

/-- Without quotes in a text, the driver finds the placeholders among its words. -/
def FindsPlaceholders : Prop :=
  ∀ text : QString, (∀ w ∈ words text, isQuote w = false) →
    ∀ w ∈ words text, isPlaceholder w → w ∈ SqlDriver.placeholders text

/-- **The server gets all that a statement needs.** -/
theorem perform_execution (hfinds : FindsPlaceholders) (S : Server) (r : QSqlResult) (rows : Rows) :
    S.perform rows r.execution = (S.exec r rows).getD rows := by
  have hbound : ∀ w ∈ SqlDriver.placeholders r.lastQuery, r.execution.boundValue w = r.boundValue w := by
    intro w hw
    have hlookup : ∀ ws : List QString, w ∈ ws →
        (ws.map fun n => (n, r.boundValue n)).lookup w = some (r.boundValue w) := by
      intro ws hmem
      induction ws with
      | nil => cases hmem
      | cons v ws ih =>
          rw [List.map_cons, List.lookup_cons]
          by_cases hv : w = v
          · rw [hv, beq_self_eq_true]
          · rw [beq_false_of_ne hv]
            exact ih ((List.mem_cons.1 hmem).resolve_left hv)
    rw [Execution.boundValue, QSqlResult.execution, hlookup _ hw]
    rfl
  rw [Server.perform, Server.exec, QSqlResult.execution]
  cases hread : Modification.read (words r.lastQuery) with
  | none => rfl
  | some m =>
      have hwithin := Modification.within_of_read hread
      rw [Option.bind_some, Option.bind_some]
      congr 1
      apply execute_congr
      intro w hw hplaceholder
      exact hbound w (hfinds _ hwithin.noQuotes w (hwithin.values_subset hw) hplaceholder)

end

end Sqlate
