/-
Sqlate/Qt/PlaceMarkers.lean

Place markers in a text that is put together.

`QString::arg` reads the whole text again at each call, so that what one call
has put in may be a marker for the next one.  `placeMarkers` are the numbers of
the markers of a text.  A text with `_%2` behind it has the markers of the text
and one more (`pieces_append`), and `arg` puts its argument there and
nowhere else exactly when all others have greater numbers (`arg_second_iff`).
-/
import Sqlate.Qt.QString

namespace QString

def percent : QChar := QChar.ofChar '%'

def underscore : QChar := QChar.ofChar '_'

/-- The numbers of the place markers of a text. -/
def placeMarkers (s : QString) : List Nat := (argPieces s.length s).filterMap ArgPiece.number?

/-- What stands in the text. -/
def ArgPiece.source : ArgPiece → QString
  | text c => [c]
  | marker _ source => source

/-- A piece, with `a` for the markers numbered `n`. -/
def ArgPiece.replaced (n : Nat) (a : QString) : ArgPiece → QString
  | text c => [c]
  | marker m source => if m = n then a else source

theorem arg_of_lowest {s : QString} {n : Nat} (h : (placeMarkers s).min? = some n) (a : QString) :
    s.arg a = (argPieces s.length s).flatMap (ArgPiece.replaced n a) := by
  rw [placeMarkers] at h
  rw [arg]
  simp only [h]
  refine congrArg (fun f => List.flatMap f _) (funext fun p => ?_)
  cases p <;> rfl

/-! ### Reading a marker -/

/-- One or two digits, and what is behind them. -/
def markerNumber : QString → Option (Nat × QString)
  | [] => none
  | c :: rest =>
      c.digitValue.map fun m =>
        match rest with
        | [] => (m, [])
        | d :: rest' =>
            match d.digitValue with
            | none => (m, rest)
            | some n => (10 * m + n, rest')

theorem placeMarker_eq (s : QString) :
    placeMarker s = markerNumber (if s.head? = some (QChar.ofChar 'L') then s.tail else s) := by
  rw [placeMarker]
  cases (if s.head? = some (QChar.ofChar 'L') then s.tail else s) <;> rfl

theorem markerNumber_eq_some {s rest : QString} {n : Nat} (h : markerNumber s = some (n, rest)) :
    ∃ digits, digits ≠ [] ∧ s = digits ++ rest := by
  cases s with
  | nil => cases h
  | cons c s =>
      obtain ⟨m, -, hrest⟩ := Option.map_eq_some_iff.mp h
      cases s with
      | nil =>
          cases hrest
          exact ⟨[c], List.cons_ne_nil _ _, rfl⟩
      | cons d s =>
          cases hd : d.digitValue with
          | none =>
              simp only [hd] at hrest
              cases hrest
              exact ⟨[c], List.cons_ne_nil _ _, rfl⟩
          | some k =>
              simp only [hd] at hrest
              cases hrest
              exact ⟨[c, d], List.cons_ne_nil _ _, rfl⟩

/-- A marker is a part of the text. -/
theorem placeMarker_eq_some {s rest : QString} {n : Nat} (h : placeMarker s = some (n, rest)) :
    ∃ marker, marker ≠ [] ∧ s = marker ++ rest := by
  rw [placeMarker_eq] at h
  split at h
  · next hlead =>
      obtain ⟨digits, hne, htail⟩ := markerNumber_eq_some h
      obtain ⟨c, t, rfl⟩ : ∃ c t, s = c :: t := by
        cases s with
        | nil => cases hlead
        | cons c t => exact ⟨c, t, rfl⟩
      rw [List.tail_cons] at htail
      exact ⟨c :: digits, List.cons_ne_nil _ _, by rw [htail]; rfl⟩
  · exact markerNumber_eq_some h

theorem digitValue_underscore : underscore.digitValue = none := by decide

/-- An underscore ends a marker. -/
theorem markerNumber_append (s t : QString) :
    markerNumber (s ++ underscore :: t)
      = (markerNumber s).map fun r => (r.1, r.2 ++ underscore :: t) := by
  cases s with
  | nil =>
      simp [markerNumber, digitValue_underscore]
  | cons c s =>
      cases s with
      | nil =>
          show (c.digitValue.map fun m => _) = ((c.digitValue.map fun m => _).map _)
          rw [Option.map_map, digitValue_underscore]
          rfl
      | cons d s =>
          show (c.digitValue.map fun m => _) = ((c.digitValue.map fun m => _).map _)
          rw [Option.map_map]
          cases d.digitValue <;> rfl

theorem placeMarker_append (s t : QString) :
    placeMarker (s ++ underscore :: t)
      = (placeMarker s).map fun r => (r.1, r.2 ++ underscore :: t) := by
  rw [placeMarker_eq, placeMarker_eq, ← markerNumber_append]
  cases s with
  | nil => rfl
  | cons c s =>
      rw [List.cons_append, List.head?_cons, List.head?_cons]
      split_ifs <;> rfl

/-! ### Pieces -/

theorem argPieces_text {c : QChar} {s : QString} (h : c = percent → placeMarker s = none)
    (fuel : Nat) : argPieces (fuel + 1) (c :: s) = .text c :: argPieces fuel s := by
  rw [argPieces]
  by_cases hc : c = QChar.ofChar '%'
  · rw [if_pos hc, h hc]
  · rw [if_neg hc]

/-- A marker, and the pieces behind it. -/
theorem argPieces_marker {marker rest : QString} {n : Nat}
    (h : placeMarker (marker ++ rest) = some (n, rest)) (fuel : Nat) :
    argPieces (fuel + 1) (percent :: (marker ++ rest))
      = .marker n (percent :: marker) :: argPieces fuel rest := by
  have hlength : (marker ++ rest).length - rest.length = marker.length := by
    rw [List.length_append]
    omega
  have hpercent : percent = QChar.ofChar '%' := rfl
  rw [argPieces, if_pos hpercent, h]
  show ArgPiece.marker n (percent :: (marker ++ rest).take _) :: _ = _
  rw [hlength, List.take_left]

/-- A text begins with a character that stands for itself or with a marker. -/
theorem pieces_cases (c : QChar) (s : QString) :
    (c = percent → placeMarker s = none) ∨
      ∃ marker rest n, marker ≠ [] ∧ c = percent ∧ s = marker ++ rest ∧
        placeMarker (marker ++ rest) = some (n, rest) := by
  by_cases hc : c = percent
  · cases h : placeMarker s with
    | none => exact .inl fun _ => rfl
    | some r =>
        obtain ⟨n, rest⟩ := r
        obtain ⟨marker, hne, rfl⟩ := placeMarker_eq_some h
        exact .inr ⟨marker, rest, n, hne, hc, rfl, h⟩
  · exact .inl fun h => absurd h hc

/-- It does not matter how much fuel is left over. -/
theorem argPieces_of_le {fuel : Nat} {s : QString} (h : s.length ≤ fuel) :
    argPieces fuel s = argPieces s.length s := by
  induction fuel using Nat.strong_induction_on generalizing s with
  | _ fuel ih =>
      cases s with
      | nil => cases fuel <;> rfl
      | cons c s =>
          obtain ⟨fuel, rfl⟩ : ∃ k, fuel = k + 1 := ⟨fuel - 1, by simp at h; omega⟩
          rw [List.length_cons] at h
          rw [List.length_cons]
          rcases pieces_cases c s with htext | ⟨marker, rest, n, hne, rfl, rfl, hmarker⟩
          · rw [argPieces_text htext, argPieces_text htext, ih fuel (by omega) (by omega)]
          · rw [List.length_append] at h
            rw [argPieces_marker hmarker, argPieces_marker hmarker, ih fuel (by omega) (by omega),
              List.length_append]
            by_cases hrest : marker.length + rest.length < fuel + 1
            · rw [ih _ hrest (by omega)]
            · omega

/-- The pieces of a text. -/
def pieces (s : QString) : List ArgPiece := argPieces s.length s

@[simp] theorem pieces_nil : pieces [] = [] := rfl

theorem pieces_text {c : QChar} {s : QString} (h : c = percent → placeMarker s = none) :
    pieces (c :: s) = .text c :: pieces s :=
  argPieces_text h s.length

theorem pieces_marker {marker rest : QString} {n : Nat}
    (h : placeMarker (marker ++ rest) = some (n, rest)) :
    pieces (percent :: (marker ++ rest)) = .marker n (percent :: marker) :: pieces rest := by
  show argPieces (_ + 1) _ = _
  rw [argPieces_marker h, argPieces_of_le (by rw [List.length_append]; omega)]
  rfl

@[simp] theorem placeMarkers_nil : placeMarkers [] = [] := rfl

theorem placeMarkers_text {c : QChar} {s : QString} (h : c = percent → placeMarker s = none) :
    placeMarkers (c :: s) = placeMarkers s := by
  show (pieces (c :: s)).filterMap _ = _
  rw [pieces_text h, List.filterMap_cons_none rfl]
  rfl

theorem placeMarkers_marker {marker rest : QString} {n : Nat}
    (h : placeMarker (marker ++ rest) = some (n, rest)) :
    placeMarkers (percent :: (marker ++ rest)) = n :: placeMarkers rest := by
  have hnumber : (ArgPiece.marker n (percent :: marker)).number? = some n := rfl
  show (pieces (percent :: (marker ++ rest))).filterMap _ = _
  rw [pieces_marker h, List.filterMap_cons_some hnumber]
  rfl

/-- Induction on the pieces of a text. -/
theorem pieces_induction {P : QString → Prop} (nil : P [])
    (text : ∀ c s, (c = percent → placeMarker s = none) → P s → P (c :: s))
    (marker : ∀ marker rest n, placeMarker (marker ++ rest) = some (n, rest) → P rest →
      P (percent :: (marker ++ rest))) (s : QString) : P s := by
  induction h : s.length using Nat.strong_induction_on generalizing s with
  | _ k ih =>
      cases s with
      | nil => exact nil
      | cons c s =>
          rw [List.length_cons] at h
          rcases pieces_cases c s with htext | ⟨m, rest, n, -, rfl, rfl, hmarker⟩
          · exact text c s htext (ih _ (by omega) s rfl)
          · rw [List.length_append] at h
            exact marker m rest n hmarker (ih _ (by omega) rest rfl)

/-- An underscore is no part of a marker. -/
theorem pieces_append (s t : QString) :
    pieces (s ++ underscore :: t) = pieces s ++ .text underscore :: pieces t := by
  induction s using pieces_induction with
  | nil => exact pieces_text fun h => absurd h (by decide)
  | text c s h ih =>
      have h' : c = percent → placeMarker (s ++ underscore :: t) = none := fun hc => by
        rw [placeMarker_append, h hc]
        rfl
      rw [List.cons_append, pieces_text h', pieces_text h, ih]
      rfl
  | marker m rest n h ih =>
      have h' : placeMarker (m ++ (rest ++ underscore :: t)) = some (n, rest ++ underscore :: t) := by
        rw [← List.append_assoc, placeMarker_append, h]
        rfl
      rw [pieces_marker h, List.cons_append, List.append_assoc, pieces_marker h', ih]
      rfl

/-- The pieces make up the text. -/
theorem flatMap_source (s : QString) : (pieces s).flatMap ArgPiece.source = s := by
  induction s using pieces_induction with
  | nil => rfl
  | text c s h ih => rw [pieces_text h, List.flatMap_cons, ih]; rfl
  | marker m rest n h ih => rw [pieces_marker h, List.flatMap_cons, ih]; rfl

/-- Without a percent sign there are no markers. -/
theorem placeMarkers_of_not_mem {s : QString} (h : percent ∉ s) : placeMarkers s = [] := by
  induction s using pieces_induction with
  | nil => rfl
  | text c s hc ih =>
      rw [List.mem_cons, not_or] at h
      rw [placeMarkers_text hc, ih h.2]
  | marker m rest n hmarker ih => exact absurd List.mem_cons_self h

/-! ### Replacing -/

section
variable (n : Nat) (a : QString)

/-- Markers with other numbers stay. -/
theorem flatMap_replaced_of_not_mem {s : QString} (h : n ∉ placeMarkers s) :
    (pieces s).flatMap (ArgPiece.replaced n a) = s := by
  conv_rhs => rw [← flatMap_source s]
  refine List.flatMap_congr fun p hp => ?_
  cases p with
  | text c => rfl
  | marker m source =>
      refine if_neg ?_
      rintro rfl
      exact h (List.mem_filterMap.mpr ⟨_, hp, rfl⟩)

theorem mem_of_mem_replaced {s : QString} {c : QChar}
    (h : c ∈ (pieces s).flatMap (ArgPiece.replaced n a)) : c ∈ s ∨ c ∈ a := by
  obtain ⟨p, hp, hc⟩ := List.mem_flatMap.mp h
  have hsource : c ∈ p.source → c ∈ s := fun hmem => by
    rw [← flatMap_source s]
    exact List.mem_flatMap.mpr ⟨p, hp, hmem⟩
  cases p with
  | text d => exact .inl (hsource hc)
  | marker m source =>
      change c ∈ (if m = n then a else source) at hc
      split_ifs at hc
      · exact .inr hc
      · exact .inl (hsource hc)

/-- Percent signs go with the markers, and none come with `a`. -/
theorem count_replaced_le (ha : percent ∉ a) (s : QString) :
    ((pieces s).flatMap (ArgPiece.replaced n a)).count percent + (placeMarkers s).count n
      ≤ s.count percent := by
  induction s using pieces_induction with
  | nil => exact le_rfl
  | text c s h ih =>
      rw [pieces_text h, placeMarkers_text h, List.flatMap_cons, List.count_append, List.count_cons]
      show List.count percent [c] + _ + _ ≤ _
      rw [List.count_singleton]
      omega
  | marker m rest k h ih =>
      rw [pieces_marker h, placeMarkers_marker h, List.flatMap_cons, List.count_append, List.count_cons,
        List.count_cons, List.count_append]
      show List.count percent (if k = n then a else percent :: m) + _ + _ ≤ _
      by_cases hk : k = n
      · rw [if_pos hk, List.count_eq_zero_of_not_mem ha]
        simp only [hk, beq_self_eq_true, if_true]
        omega
      · rw [if_neg hk, List.count_cons]
        simp only [beq_self_eq_true, if_true, beq_eq_false_iff_ne.mpr hk, Bool.false_eq_true, if_false]
        omega

end

/-! ### Two markers -/

/-- Two ways to part a text at the same character. -/
theorem append_cons_eq_iff {c : QChar} {s t u v : QString} :
    s ++ c :: u = t ++ c :: v ↔ (s = t ∧ u = v) ∨
      (∃ m, t = s ++ c :: m ∧ u = m ++ c :: v) ∨ (∃ m, s = t ++ c :: m ∧ v = m ++ c :: u) := by
  constructor
  · intro h
    rcases List.append_eq_append_iff.mp h with ⟨m, rfl, hm⟩ | ⟨m, rfl, hm⟩
    · cases m with
      | nil => exact .inl ⟨(List.append_nil s).symm, (List.cons.inj hm).2⟩
      | cons d m =>
          obtain ⟨rfl, htail⟩ := List.cons.inj hm
          exact .inr (.inl ⟨m, rfl, htail⟩)
    · cases m with
      | nil => exact .inl ⟨List.append_nil t, (List.cons.inj hm).2.symm⟩
      | cons d m =>
          obtain ⟨rfl, htail⟩ := List.cons.inj hm
          exact .inr (.inr ⟨m, rfl, htail⟩)
  · rintro (⟨rfl, rfl⟩ | ⟨m, rfl, rfl⟩ | ⟨m, rfl, rfl⟩)
    · rfl
    · simp
    · simp

/-- The last underscore of a text. -/
theorem append_cons_inj_of_not_mem {c : QChar} {s t u v : QString} (hu : c ∉ u) (hv : c ∉ v) :
    s ++ c :: u = t ++ c :: v ↔ s = t ∧ u = v := by
  rw [append_cons_eq_iff]
  constructor
  · rintro (h | ⟨m, -, rfl⟩ | ⟨m, -, rfl⟩)
    · exact h
    · exact absurd (List.mem_append_right m List.mem_cons_self) hu
    · exact absurd (List.mem_append_right m List.mem_cons_self) hv
  · exact .inl

/-- The first argument goes in front, and the second is what its markers and the
last one make of it. -/
theorem pieces_second (s : QString) :
    pieces (s ++ latin1 "_%2") = pieces s ++ [.text underscore, .marker 2 (latin1 "%2")] := by
  have hsecond : pieces (latin1 "%2") = [.marker 2 (latin1 "%2")] := by decide
  have happend := pieces_append s (latin1 "%2")
  rwa [hsecond] at happend

theorem arg_first (s : QString) : (latin1 "%1_%2").arg s = s ++ latin1 "_%2" := by
  have hlowest : (placeMarkers (latin1 "%1_%2")).min? = some 1 := by decide
  have hpieces : argPieces (latin1 "%1_%2").length (latin1 "%1_%2")
      = [.marker 1 (latin1 "%1"), .text underscore, .marker 2 (latin1 "%2")] := by decide
  rw [arg_of_lowest hlowest, hpieces]
  rfl

theorem placeMarkers_second (s : QString) : placeMarkers (s ++ latin1 "_%2") = placeMarkers s ++ [2] := by
  show (pieces _).filterMap _ = _
  rw [pieces_second, List.filterMap_append]
  rfl

/-- What the second argument replaces: the markers with the lowest number. -/
theorem arg_second (s a : QString) :
    ∃ n ∈ placeMarkers s ++ [2], (∀ m ∈ placeMarkers s ++ [2], n ≤ m) ∧
      (s ++ latin1 "_%2").arg a = (pieces s).flatMap (ArgPiece.replaced n a)
        ++ underscore :: if 2 = n then a else latin1 "%2" := by
  obtain ⟨n, hn⟩ := Option.isSome_iff_exists.mp
    (List.isSome_min?_of_ne_nil (List.append_ne_nil_of_right_ne_nil (placeMarkers s)
      (List.cons_ne_nil 2 [])))
  obtain ⟨hmem, hle⟩ := List.min?_eq_some_iff.mp hn
  refine ⟨n, hmem, hle, ?_⟩
  rw [← placeMarkers_second] at hn
  rw [arg_of_lowest hn]
  show (pieces _).flatMap _ = _
  rw [pieces_second, List.flatMap_append]
  congr 1
  show underscore :: ((if 2 = n then a else _) ++ []) = _
  rw [List.append_nil]

/-- **When the second argument goes where it should**: all markers of the first one
have greater numbers. -/
theorem arg_second_iff {s a : QString} (hpercent : percent ∉ a) (hunderscore : underscore ∉ a) :
    ((latin1 "%1_%2").arg s).arg a = s ++ underscore :: a ↔ ∀ n ∈ placeMarkers s, 2 < n := by
  rw [arg_first]
  obtain ⟨n, hn, hle, harg⟩ := arg_second s a
  have hlow : n ≤ 2 := hle 2 (List.mem_append_right _ (List.mem_singleton_self 2))
  rw [harg]
  constructor
  · intro h m hm
    have hend : underscore ∉ (if 2 = n then a else latin1 "%2") := by
      split_ifs
      · exact hunderscore
      · decide
    obtain ⟨hfront, hlast⟩ := (append_cons_inj_of_not_mem hend hunderscore).mp h
    obtain rfl : 2 = n := by
      by_contra hne
      rw [if_neg hne] at hlast
      exact hpercent (hlast ▸ List.mem_cons_self)
    have hcount := count_replaced_le 2 a hpercent s
    rw [hfront] at hcount
    have hnone : 2 ∉ placeMarkers s := List.count_eq_zero.mp (by omega)
    have hm2 := hle m (List.mem_append_left _ hm)
    have hne : m ≠ 2 := fun heq => hnone (heq ▸ hm)
    omega
  · intro h
    have hnone : 2 ∉ placeMarkers s := fun hmem => lt_irrefl 2 (h 2 hmem)
    obtain rfl : 2 = n := by
      rcases List.mem_append.mp hn with hn | hn
      · have := h n hn
        omega
      · exact (List.mem_singleton.mp hn).symm
    rw [flatMap_replaced_of_not_mem 2 a hnone, if_pos rfl]

end QString
