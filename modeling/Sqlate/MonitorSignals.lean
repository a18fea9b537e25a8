/-
Sqlate/MonitorSignals.lean

The signals a monitor emits when a notification arrives.

`notificationReceived` looks for the notification in lower case among the tables
first, and then, as it is, among the values.  What has been put in these lists ends
in `changed` or in an underscore and an identifier (`identified_ne_changed`), so
the channels of tables and of values do not get into each other's way
(`notificationReceived_of_run`).

A program may do anything else meanwhile, with other monitors and with queries.
-/
import Sqlate.ValueChannels

namespace Sqlate

/-- The signals of `SqlMonitor`. -/
inductive MonitorSignal
  | tablesChanged
  | notify (notification : QString)
  deriving DecidableEq, Repr

/-- `SqlMonitor::notificationReceived`. -/
def SqlMonitor.notificationReceived [CaseFolding] (mon : SqlMonitor) (notification : QString) :
    Option MonitorSignal :=
  if mon.tables.contains (CaseFolding.toLower notification) then some .tablesChanged
  else if mon.monitoredValues.contains notification then some (.notify notification)
  else none

theorem SqlMonitor.notificationReceived_eq [CaseFolding] (mon : SqlMonitor)
    (notification : QString) :
    mon.notificationReceived notification =
      if CaseFolding.toLower notification ∈ mon.tables then some .tablesChanged
      else if notification ∈ mon.monitoredValues then some (.notify notification)
      else none := by
  simp only [notificationReceived, List.contains_iff_mem]

/-- What is known of the two foldings of case: the one of Qt goes on behind characters
in ASCII, and does not see whether the server has folded a name.  (Folding is not all
that the server does: it also cuts long names, see `serverName`.) -/
structure FoldsNames [CaseFolding] (foldName : QString → QString) : Prop where
  toLower_append : ∀ s t : QString, isAscii t = true →
    CaseFolding.toLower (s ++ t) = CaseFolding.toLower s ++ CaseFolding.ascii.toLower t
  toLower_foldName : ∀ s, CaseFolding.toLower (foldName s) = CaseFolding.toLower s

/-! ### The calls of a program -/

namespace Process

/-- The tables that an operation gives to monitor `m`. -/
def Event.tablesOf (m : Nat) : Event → List QString
  | setMonitorTables m' tables => if m' = m then tables else []
  | _ => []

/-- The notifications for values that an operation registers with monitor `m`. -/
def Event.valuesOf [HashFunction] (m : Nat) : Event → List QString
  | addValueMonitor m' table column value =>
      if m' = m then [valueNotification table column value] else []
  | _ => []

/-- The monitor that an operation is a call of. -/
def Event.monitorOf : Event → Option Nat
  | newMonitor m _ | setMonitorTables m _ | addValueMonitor m _ _ _
  | unsubscribeValuesNotifications m | destroyMonitor m => some m
  | _ => none

/-- The operation neither ends monitor `m` nor unsubscribes its values. -/
def Event.Keeps (m : Nat) (e : Event) : Prop :=
  e ≠ unsubscribeValuesNotifications m ∧ e ≠ destroyMonitor m

section
variable [CaseFolding]

/-- A monitor with more tables and values. -/
structure Collects (mon mon' : SqlMonitor) (tables values : List QString) : Prop where
  tables : ∀ n, n ∈ mon'.tables ↔ n ∈ mon.tables ∨ ∃ t ∈ tables, tableNotification t = n
  values : mon'.monitoredValues = mon.monitoredValues ++ values

theorem Collects.refl (mon : SqlMonitor) : Collects mon mon [] [] where
  tables := fun n => by simp
  values := (List.append_nil _).symm

theorem Collects.trans {mon mon' mon'' : SqlMonitor} {tables tables' values values' : List QString}
    (h : Collects mon mon' tables values) (h' : Collects mon' mon'' tables' values') :
    Collects mon mon'' (tables ++ tables') (values ++ values') where
  tables := fun n => by
    rw [h'.tables, h.tables, or_assoc]
    simp only [List.mem_append, or_and_right, exists_or]
  values := by rw [h'.values, h.values, List.append_assoc]

theorem collects_setMonitorTable (m : Nat) (mon : SqlMonitor) (w : Process) (table : QString) :
    Collects mon (setMonitorTable m (mon, w) table).1 [table] [] := by
  rw [setMonitorTable]
  show Collects mon (if _ then _ else _ : SqlMonitor × Process).1 _ _
  split_ifs with hlisted
  · refine ⟨fun n => ?_, (List.append_nil _).symm⟩
    simp only [List.mem_singleton, exists_eq_left]
    refine (or_iff_left_of_imp ?_).symm
    rintro rfl
    exact hlisted
  · refine ⟨fun n => ?_, (List.append_nil _).symm⟩
    simp only [List.mem_append, List.mem_singleton, exists_eq_left]
    exact or_congr_right eq_comm

theorem collects_setMonitorTables {m : Nat} {mon : SqlMonitor} {w : Process}
    (h : w.monitor m = some mon) (tables : List QString) :
    ∃ mon', (w.setMonitorTables m mon tables).monitor m = some mon' ∧
      Collects mon mon' tables [] := by
  rw [setMonitorTables]
  induction tables generalizing mon w with
  | nil => exact ⟨mon, h, .refl mon⟩
  | cons table tables ih =>
      have hmonitor : (setMonitorTable m (mon, w) table).2.monitor m
          = some (setMonitorTable m (mon, w) table).1 := by
        rw [(listens_setMonitorTable h table).monitor, Function.update_self]
      obtain ⟨mon', hmon', hrest⟩ := ih hmonitor
      exact ⟨mon', hmon', (collects_setMonitorTable m mon w table).trans hrest⟩

variable [HashFunction] [SqlDriver]

omit [CaseFolding] [SqlDriver] in
/-- Only the calls of a monitor itself give it anything. -/
theorem Event.of_monitorOf_ne {e : Event} {m : Nat} (h : e.monitorOf ≠ some m) :
    e.tablesOf m = [] ∧ e.valuesOf m = [] := by
  cases e with
  | setMonitorTables k tables => exact ⟨if_neg fun heq => h (congrArg some heq), rfl⟩
  | addValueMonitor k table column value => exact ⟨rfl, if_neg fun heq => h (congrArg some heq)⟩
  | _ => exact ⟨rfl, rfl⟩

omit [CaseFolding] [HashFunction] [SqlDriver] in
/-- The calls of one monitor leave the members of the others alone. -/
theorem MonitorEffect.monitor_eq {w w' : Process} {e : Event} (h : MonitorEffect w e w') {m : Nat}
    (hne : e.monitorOf ≠ some m) : w'.monitor m = w.monitor m := by
  have hother : ∀ {k : Nat}, e.monitorOf = some k → m ≠ k := by
    rintro k hk rfl
    exact hne hk
  cases h with
  | nothing => rfl
  | newMonitor hk => exact Function.update_of_ne (hother rfl) _ _
  | setMonitorTables hk hlistens => rw [hlistens.monitor, Function.update_of_ne (hother rfl)]
  | addValueMonitor hk hlistens => rw [hlistens.monitor, Function.update_of_ne (hother rfl)]
  | unsubscribeValuesNotifications hk =>
      rw [unsubscribeValuesNotifications_eq]
      exact Function.update_of_ne (hother rfl) _ _
  | destroyMonitor => exact Function.update_of_ne (hother rfl) _ _

/-- One operation of the program, seen by monitor `m`. -/
theorem collects_step {w w' : Process} (hw : w.Orderly) {m : Nat} {mon : SqlMonitor}
    (hm : w.monitor m = some mon) {e : Event} (hkeeps : e.Keeps m) (h : w.step e = .ok w') :
    ∃ mon', w'.monitor m = some mon' ∧ Collects mon mon' (e.tablesOf m) (e.valuesOf m) := by
  by_cases htarget : e.monitorOf = some m
  · cases e with
    | newMonitor k c =>
        obtain rfl := Option.some.inj htarget
        simp only [step, hm, Option.isSome_some, if_true] at h
        obtain rfl := Except.ok.inj h
        exact ⟨mon, hm, .refl mon⟩
    | setMonitorTables k tables =>
        obtain rfl := Option.some.inj htarget
        simp only [step, hm] at h
        obtain rfl := Except.ok.inj h
        rw [Event.tablesOf, if_pos rfl]
        exact collects_setMonitorTables hm tables
    | addValueMonitor k table column value =>
        obtain rfl := Option.some.inj htarget
        simp only [step, hm] at h
        obtain rfl := Except.ok.inj h
        refine ⟨_, monitor_addValueMonitor k mon w table column value, ?_⟩
        rw [Event.valuesOf, if_pos rfl]
        exact ⟨fun n => by simp [Event.tablesOf], rfl⟩
    | unsubscribeValuesNotifications k =>
        obtain rfl := Option.some.inj htarget
        exact absurd rfl hkeeps.1
    | destroyMonitor k =>
        obtain rfl := Option.some.inj htarget
        exact absurd rfl hkeeps.2
    | _ => cases htarget
  · obtain ⟨htables, hvalues⟩ := Event.of_monitorOf_ne htarget
    have hkept : w'.monitor m = w.monitor m := by
      cases he : e.onMonitor with
      | false => rw [(refreshed_step hw he h).monitor]
      | true => exact (monitorEffect_step hw he h).monitor_eq htarget
    rw [htables, hvalues, hkept]
    exact ⟨mon, hm, .refl mon⟩

/-- Nothing follows an operation that does not come back. -/
theorem run_error (x : Stop) (es : List Event) :
    Runs.run next (.error x) es = .error x := by
  induction es with
  | nil => rfl
  | cons e es ih => exact ih

/-- **What a monitor lists after a run**: the tables it was given, and the values that
were registered with it. -/
theorem collects_run {es : List Event} {w w' : Process} (hw : w.Orderly) {m : Nat}
    {mon : SqlMonitor} (hm : w.monitor m = some mon) (hkeeps : ∀ e ∈ es, e.Keeps m)
    (h : Runs.run next (.ok w) es = .ok w') :
    ∃ mon', w'.monitor m = some mon' ∧
      Collects mon mon' (es.flatMap (Event.tablesOf m)) (es.flatMap (Event.valuesOf m)) := by
  induction es generalizing w mon with
  | nil =>
      obtain rfl := Except.ok.inj h
      exact ⟨mon, hm, .refl mon⟩
  | cons e es ih =>
      rw [Runs.run_cons] at h
      cases hstep : w.step e with
      | error x =>
          have hstop : next (.ok w) e = .error x := hstep
          rw [hstop, run_error] at h
          cases h
      | ok v =>
          have hnext : next (.ok w) e = .ok v := hstep
          rw [hnext] at h
          obtain ⟨mon₁, hm₁, hfirst⟩ := collects_step hw hm (hkeeps e List.mem_cons_self) hstep
          obtain ⟨mon', hm', hrest⟩ := ih (orderly_step hw hstep) hm₁
            (fun f hf => hkeeps f (List.mem_cons_of_mem _ hf)) h
          exact ⟨mon', hm', hfirst.trans hrest⟩

end

end Process

/-! ### Channels -/

section
variable [HashFunction]

/-- A notification that has been registered ends in an underscore and an identifier, or in
an underscore and a marker that was not replaced. -/
theorem Process.valueNotification_eq_append (table column value : QString) :
    ∃ front identifier, Process.valueNotification table column value
        = front ++ QString.underscore :: identifier ∧
      (identifier = Process.createIdentifier (table ++ latin1 "_" ++ column)
        ∨ identifier = latin1 "%2") := by
  rw [Process.valueNotification, QString.arg_first]
  obtain ⟨n, -, -, harg⟩ := QString.arg_second (Process.processedValue value)
    (Process.createIdentifier (table ++ latin1 "_" ++ column))
  refine ⟨_, _, harg, ?_⟩
  split_ifs
  · exact .inl rfl
  · exact .inr rfl

end

/-- A text that ends in `changed` does not end in an underscore and something without the
letter g. -/
theorem identified_ne_changed {s t u : QString} (h : QChar.ofChar 'g' ∉ u) :
    s ++ QString.underscore :: u ≠ t ++ latin1 "changed" := by
  intro heq
  rcases List.append_eq_append_iff.mp heq with ⟨m, -, hm⟩ | ⟨m, -, hm⟩
  · cases m with
    | nil => exact absurd (List.cons.inj hm).1 (by decide)
    | cons c m =>
        rw [(List.cons.inj hm).2] at h
        exact h (List.mem_append_right m (by decide))
  · have hmem : QString.underscore ∈ latin1 "changed" := by
      rw [hm]
      exact List.mem_append_right m List.mem_cons_self
    exact absurd hmem (by decide)

section
variable [CaseFolding] {foldName : QString → QString}

/-- The identifiers of columns are in lower case. -/
theorem FoldsNames.toLower_identified (hfolds : FoldsNames foldName) {u : QString}
    (hu : ∀ c ∈ u, c ∈ QString.hexDigits) (s : QString) :
    CaseFolding.toLower (s ++ QString.underscore :: u)
      = CaseFolding.toLower s ++ QString.underscore :: u := by
  -- no digit, and not the underscore either, is an upper case letter
  have hdigits : (QString.underscore :: QString.hexDigits).all
      fun c => c.val < 0x80 ∧ ¬ (0x41 ≤ c.val ∧ c.val ≤ 0x5A) := by decide
  have hall : ∀ c ∈ QString.underscore :: u, c.val < 0x80 ∧ ¬ (0x41 ≤ c.val ∧ c.val ≤ 0x5A) := by
    intro c hc
    refine of_decide_eq_true (List.all_eq_true.mp hdigits c ?_)
    rcases List.mem_cons.mp hc with rfl | hc
    · exact List.mem_cons_self
    · exact List.mem_cons_of_mem _ (hu c hc)
  have hascii : isAscii (QString.underscore :: u) = true :=
    List.all_eq_true.mpr fun c hc => decide_eq_true (hall c hc).1
  rw [hfolds.toLower_append s _ hascii]
  congr 1
  show (QString.underscore :: u).map _ = _
  conv_rhs => rw [← List.map_id (QString.underscore :: u)]
  exact List.map_congr_left fun c hc => if_neg (hall c hc).2

/-- The channel of a table, in lower case. -/
theorem FoldsNames.toLower_changed (hfolds : FoldsNames foldName) (name : QString) :
    CaseFolding.toLower (foldName (name ++ latin1 "Changed"))
      = CaseFolding.toLower name ++ latin1 "changed" := by
  rw [hfolds.toLower_foldName, hfolds.toLower_append _ _ (by decide)]
  rfl

/-- The channel of a table is not that of a value. -/
theorem FoldsNames.changed_ne_valueNotification [HashFunction] (hfolds : FoldsNames foldName)
    (name table column value : QString) :
    foldName (name ++ latin1 "Changed") ≠ Process.valueNotification table column value := by
  obtain ⟨front, identifier, heq, hidentifier⟩ :=
    Process.valueNotification_eq_append table column value
  intro h
  have hlower := congrArg CaseFolding.toLower h
  rw [hfolds.toLower_changed, heq] at hlower
  rcases hidentifier with rfl | rfl
  · rw [Process.createIdentifier,
      hfolds.toLower_identified fun c hc => QString.mem_hexDigits_of_mem_numberHex hc] at hlower
    refine identified_ne_changed (fun hg => ?_) hlower.symm
    exact absurd (QString.mem_hexDigits_of_mem_numberHex hg) (by decide)
  · rw [hfolds.toLower_append _ _ (by decide)] at hlower
    exact identified_ne_changed (u := latin1 "%2") (by decide) hlower.symm

/-! ### Signals -/

/-- The channels of tables, to a monitor that was given `tables`. -/
def SqlMonitor.SignalsTables (foldName : QString → QString) (tables : List QString)
    (mon : SqlMonitor) : Prop :=
  ∀ t, ∀ rule ∈ notificationRules t, ∀ old,
    (mon.notificationReceived (rule.action.channel foldName old) = some .tablesChanged ↔
      ∃ name ∈ tables, CaseFolding.toLower name = CaseFolding.toLower t.sqlName) ∧
    ∀ n, mon.notificationReceived (rule.action.channel foldName old) ≠ some (.notify n)

/-- The channels of values, to a monitor with which `values` were registered. -/
def SqlMonitor.SignalsValues (values : List QString) (mon : SqlMonitor) : Prop :=
  ∀ text identifier : QString, (∀ c ∈ identifier, c ∈ QString.hexDigits) →
    (mon.notificationReceived (text ++ latin1 "_" ++ identifier)
        = some (.notify (text ++ latin1 "_" ++ identifier)) ↔
      text ++ latin1 "_" ++ identifier ∈ values) ∧
    mon.notificationReceived (text ++ latin1 "_" ++ identifier) ≠ some .tablesChanged

omit [CaseFolding] in
theorem Process.mem_valuesOf [HashFunction] {m : Nat} {es : List Process.Event} {n : QString}
    (h : n ∈ es.flatMap (Process.Event.valuesOf m)) :
    ∃ table column value, n = Process.valueNotification table column value := by
  obtain ⟨e, -, hn⟩ := List.mem_flatMap.mp h
  cases e with
  | addValueMonitor k table column value =>
      rw [Process.Event.valuesOf] at hn
      split_ifs at hn
      · exact ⟨table, column, value, List.mem_singleton.mp hn⟩
      · cases hn
  | _ => cases hn

section
variable {mon : SqlMonitor} {c : QString} {tables values : List QString}
  (hcollects : Process.Collects ⟨c, [], []⟩ mon tables values)

include hcollects

theorem FoldsNames.signalsTables [HashFunction] (hfolds : FoldsNames foldName)
    (hvalues : ∀ n ∈ values, ∃ table column value,
      n = Process.valueNotification table column value) :
    mon.SignalsTables foldName tables := by
  intro t rule hrule old
  have haction : rule.action.channel foldName old = foldName (t.sqlName ++ latin1 "Changed") := by
    rw [notificationRules] at hrule
    split_ifs at hrule
    · cases hrule
    · obtain ⟨op, -, rfl⟩ := List.mem_map.mp hrule
      rfl
  -- nothing of the sort is registered as a value
  have hvalue : foldName (t.sqlName ++ latin1 "Changed") ∉ mon.monitoredValues := by
    intro hmem
    rw [hcollects.values] at hmem
    obtain ⟨table, column, value, heq⟩ := hvalues _ hmem
    exact hfolds.changed_ne_valueNotification t.sqlName table column value heq
  have htable : CaseFolding.toLower t.sqlName ++ latin1 "changed" ∈ mon.tables ↔
      ∃ name ∈ tables, CaseFolding.toLower name = CaseFolding.toLower t.sqlName := by
    rw [hcollects.tables, or_iff_right List.not_mem_nil]
    refine exists_congr fun name => and_congr_right fun _ => ?_
    exact List.append_left_inj (latin1 "changed")
  rw [haction, SqlMonitor.notificationReceived_eq, hfolds.toLower_changed, if_neg hvalue]
  constructor
  · rw [← htable]
    constructor
    · intro h
      by_contra hmem
      rw [if_neg hmem] at h
      cases h
    · intro hmem
      exact if_pos hmem
  · intro n h
    split_ifs at h
    cases h

theorem FoldsNames.signalsValues (hfolds : FoldsNames foldName) :
    mon.SignalsValues values := by
  intro text identifier hidentifier
  have hchannel : text ++ latin1 "_" ++ identifier = text ++ QString.underscore :: identifier :=
    List.append_assoc _ _ _
  -- nothing of the sort is kept for a table
  have htable : CaseFolding.toLower (text ++ QString.underscore :: identifier) ∉ mon.tables := by
    intro hmem
    rw [hcollects.tables, or_iff_right List.not_mem_nil,
      hfolds.toLower_identified hidentifier] at hmem
    obtain ⟨name, -, heq⟩ := hmem
    refine identified_ne_changed (fun hg => ?_) heq.symm
    exact absurd (hidentifier _ hg) (by decide)
  have hvalues : mon.monitoredValues = values := hcollects.values
  rw [hchannel, SqlMonitor.notificationReceived_eq, if_neg htable, hvalues]
  constructor
  · constructor
    · intro h
      by_contra hmem
      rw [if_neg hmem] at h
      cases h
    · intro hmem
      exact if_pos hmem
  · intro h
    split_ifs at h
    cases h

end

end

/-- **What a monitor tells about a notification**, after any run in which it was given
tables and values: a change of the tables for the channel of one of them, in any letter
case, a value for a channel that was registered, and never the one for the other. -/
theorem notificationReceived_of_run [CaseFolding] [HashFunction] [SqlDriver]
    {foldName : QString → QString} (hfolds : FoldsNames foldName) {m : Nat} {c : QString}
    {before after : List Process.Event} {w w' : Process}
    (hbefore : Runs.run Process.next (.ok Process.start) before = .ok w)
    (hm : w.monitor m = some ⟨c, [], []⟩) (hkeeps : ∀ e ∈ after, e.Keeps m)
    (hafter : Runs.run Process.next (.ok w) after = .ok w') :
    ∃ mon, w'.monitor m = some mon ∧
      mon.SignalsTables foldName (after.flatMap (Process.Event.tablesOf m)) ∧
      mon.SignalsValues (after.flatMap (Process.Event.valuesOf m)) := by
  obtain ⟨mon, hmon, hcollects⟩ :=
    Process.collects_run (Process.orderly_of_run hbefore) hm hkeeps hafter
  refine ⟨mon, hmon, ?_, hfolds.signalsValues hcollects⟩
  exact hfolds.signalsTables hcollects fun n hn => Process.mem_valuesOf hn

/-- Lower case in ASCII on both sides. -/
theorem foldsNames_ascii :
    let _ : CaseFolding := .ascii
    FoldsNames CaseFolding.toLower := by
  intro folding
  constructor
  · intro s t _
    exact List.map_append
  · exact CaseFolding.ascii_toLower_toLower

/-- A monitor of a table, in upper case, and of one name. -/
theorem notificationReceived_of_run_person :
    let _ : CaseFolding := .ascii
    let _ : HashFunction := ⟨fun _ => 0x6f3a1⟩
    let _ : SqlDriver := ⟨fun _ => [], fun _ => true⟩
    ∃ w mon, Runs.run Process.next (.ok Process.start)
          [.newMonitor 0 (latin1 "db"), .setMonitorTables 0 [latin1 "PERSON"],
            .addValueMonitor 0 (latin1 "person") (latin1 "name") (latin1 "ann")] = .ok w ∧
      w.monitor 0 = some mon ∧ mon.SignalsTables CaseFolding.toLower [latin1 "PERSON"] ∧
      mon.SignalsValues [latin1 "ann_6f3a1"] := by
  intro _ _ _
  obtain ⟨w, hbefore⟩ : ∃ w, Runs.run Process.next (.ok Process.start)
      [.newMonitor 0 (latin1 "db")] = .ok w := ⟨_, rfl⟩
  have hm : w.monitor 0 = some ⟨latin1 "db", [], []⟩ := by
    obtain rfl := Except.ok.inj hbefore
    rfl
  obtain ⟨w', hafter⟩ : ∃ w', Runs.run Process.next (.ok w)
      [.setMonitorTables 0 [latin1 "PERSON"],
        .addValueMonitor 0 (latin1 "person") (latin1 "name") (latin1 "ann")] = .ok w' := by
    obtain rfl := Except.ok.inj hbefore
    exact ⟨_, rfl⟩
  have hkeeps : ∀ e ∈ [Process.Event.setMonitorTables 0 [latin1 "PERSON"],
      .addValueMonitor 0 (latin1 "person") (latin1 "name") (latin1 "ann")], e.Keeps 0 := by
    intro e he
    simp only [List.mem_cons, List.not_mem_nil, or_false] at he
    rcases he with rfl | rfl
    · exact ⟨Process.Event.noConfusion, Process.Event.noConfusion⟩
    · exact ⟨Process.Event.noConfusion, Process.Event.noConfusion⟩
  obtain ⟨mon, hmon, htables, hvalues⟩ :=
    notificationReceived_of_run foldsNames_ascii hbefore hm hkeeps hafter
  refine ⟨w', mon, ?_, hmon, htables, ?_⟩
  · have hstart : Process.next (.ok Process.start) (.newMonitor 0 (latin1 "db")) = .ok w := hbefore
    rw [Runs.run_cons, hstart]
    exact hafter
  · have hnotification : Process.valueNotification (latin1 "person") (latin1 "name") (latin1 "ann")
        = latin1 "ann_6f3a1" := by decide
    rw [← hnotification]
    exact hvalues

end Sqlate
