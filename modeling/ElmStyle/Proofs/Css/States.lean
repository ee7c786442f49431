import ElmStyle.Proofs.Css.Compounds

/-!
# Pseudo-selectors at the end of a class

The symbols of a class tell which of its colons are escaped: each backslash goes with the character
after it. Splitting off the state looks at the one character before a colon instead. The two
readings of a class agree exactly if no backslash of its name stands right before the colons of its
state. Where one does, a single colon is lost to the name, and of two colons the first one is.
-/
namespace ElmStyle.Css.Selector

/-- The name of a pseudo-selector: a letter, then letters and hyphens. -/
def IsState (name : List Char) : Prop :=
  ∃ first rest, name = first :: rest ∧ first.isLower ∧ ∀ c ∈ rest, c.isLower ∨ c = '-'

/-- The row ends in a pseudo-selector: one or two colons and a name, none of it escaped. Where two
colons are there, both belong to it. -/
structure EndsInState (us before : List Symbol) (colons : Nat) (state : List Char) : Prop where
  row : ∃ tail, us = before ++ tail ∧
    tail.map Symbol.bare? = (List.replicate colons ':' ++ state).map some
  few : colons = 1 ∨ colons = 2
  both : colons = 1 → before.getLast?.bind Symbol.bare? ≠ some ':'
  named : IsState state

theorem IsState.chars {name : List Char} (named : IsState name) : ∀ c ∈ name, isStateChar c := by
  obtain ⟨first, rest, rfl, lower, each⟩ := named
  intro c member
  rcases List.mem_cons.mp member with rfl | later
  · simp [isStateChar, lower]
  · simpa [isStateChar] using each c later

/-- Splitting at the colon before a name only looks at what stands before the colon. -/
theorem splitState_state (front state : List Char) (named : IsState state) :
    splitState (front ++ ':' :: state) =
      (beforeColons? front.reverse).elim (front ++ ':' :: state, none)
        fun rest => (rest.reverse, some state) := by
  have each : ∀ c ∈ state.reverse, isStateChar c :=
    fun c member => named.chars c (List.mem_reverse.mp member)
  have stop : isStateChar ':' = false := by decide
  have back : (front ++ ':' :: state).reverse = state.reverse ++ ':' :: front.reverse := by simp
  have name : (front ++ ':' :: state).reverse.takeWhile isStateChar = state.reverse := by
    rw [back, List.takeWhile_append_of_pos each]
    simp [stop]
  have rest : (front ++ ':' :: state).reverse.dropWhile isStateChar = ':' :: front.reverse := by
    rw [back, List.dropWhile_append_of_pos each]
    simp [stop]
  obtain ⟨first, later, rfl, lower, -⟩ := named
  simp only [splitState, name, rest, List.reverse_reverse, if_pos lower]
  cases beforeColons? front.reverse <;> rfl

/-- A colon after a backslash starts no state. -/
theorem splitState_guarded (front state : List Char) (named : IsState state)
    (guard : front.getLast? = some '\\') :
    splitState (front ++ ':' :: state) = (front ++ ':' :: state, none) := by
  obtain ⟨before, rfl⟩ := List.getLast?_eq_some_iff.mp guard
  rw [splitState_state _ state named, List.reverse_append]
  rfl

/-- One colon starts the state if the one before it, if there is one, comes after a backslash. -/
theorem splitState_single (front state : List Char) (named : IsState state)
    (bare : front.getLast? ≠ some '\\')
    (single : ∀ before, front = before ++ [':'] → before.getLast? = some '\\') :
    splitState (front ++ ':' :: state) = (front, some state) := by
  have kept : beforeColons? front.reverse = some front.reverse := by
    cases front using List.reverseRecOn with
    | nil => rfl
    | append_singleton before c =>
      by_cases colon : c = ':'
      · subst colon
        obtain ⟨first, rfl⟩ := List.getLast?_eq_some_iff.mp (single before rfl)
        simp [beforeColons?]
      · have other : c ≠ '\\' := by simpa using bare
        simp [beforeColons?, colon, other]
  rw [splitState_state front state named, kept, Option.elim_some, List.reverse_reverse]

/-- Two colons start the state together. -/
theorem splitState_double (front state : List Char) (named : IsState state)
    (bare : front.getLast? ≠ some '\\') :
    splitState (front ++ ':' :: ':' :: state) = (front, some state) := by
  have both : beforeColons? (front ++ [':']).reverse = some front.reverse := by
    cases front using List.reverseRecOn with
    | nil => rfl
    | append_singleton before c =>
      have other : c ≠ '\\' := by simpa using bare
      simp [beforeColons?, other]
  have split := splitState_state (front ++ [':']) state named
  rwa [both, Option.elim_some, List.reverse_reverse, List.append_assoc, List.singleton_append]
    at split

theorem splitState_stateless (raw : List Char)
    (absent : ∀ front state, IsState state → raw ≠ front ++ ':' :: state) :
    splitState raw = (raw, none) := by
  simp only [splitState]
  split
  next first later before name rest =>
    rw [ite_eq_right_iff]
    intro lower
    exfalso
    have whole := congrArg List.reverse (List.takeWhile_append_dropWhile
      (p := isStateChar) (l := raw.reverse))
    rw [rest, List.reverse_append, List.reverse_reverse] at whole
    refine absent before.reverse _ ⟨first, later, name, lower, ?_⟩ (by simpa using whole.symm)
    intro c member
    have held : c ∈ raw.reverse.takeWhile isStateChar := by
      rw [← List.mem_reverse, name]
      exact List.mem_cons_of_mem _ member
    simpa [isStateChar] using List.mem_takeWhile_imp held
  next => rfl

/-- Bare symbols are written as they are spelled. -/
theorem bare_text (us : List Symbol) (cs : List Char) (bare : us.map Symbol.bare? = cs.map some) :
    written us = cs ∧ spelled us = cs := by
  induction us generalizing cs with
  | nil =>
    obtain rfl : cs = [] := by simpa using bare.symm
    exact ⟨rfl, rfl⟩
  | cons u us ih =>
    cases cs with
    | nil => cases bare
    | cons c cs =>
      rw [List.map_cons, List.map_cons, List.cons.injEq] at bare
      obtain ⟨later, chars⟩ := ih cs bare.2
      cases u with
      | bare d solid =>
        obtain rfl : d = c := Option.some.inj bare.1
        exact ⟨congrArg (d :: ·) later, congrArg (d :: ·) chars⟩
      | escaped d solid => cases bare.1

/-- The last symbol of a row, bare or with its backslash, by the last character of its text. -/
theorem written_concat (us : List Symbol) (front : List Char) (c : Char)
    (text : written us = front ++ [c]) :
    ∃ before u, us = before ++ [u] ∧
      ((u.bare? = some c ∧ front = written before) ∨
        u.bare? = none ∧ front = written before ++ ['\\']) := by
  cases us using List.reverseRecOn with
  | nil => simp [written] at text
  | append_singleton before u =>
    rw [written_append] at text
    refine ⟨before, u, rfl, ?_⟩
    cases u with
    | bare d solid =>
      obtain ⟨same, last⟩ := List.append_inj' text rfl
      cases last
      exact .inl ⟨rfl, same.symm⟩
    | escaped d solid =>
      have parts : (written before ++ ['\\']) ++ [d] = front ++ [c] := by
        simpa [written, Symbol.text] using text
      obtain ⟨same, -⟩ := List.append_inj' parts rfl
      exact .inr ⟨rfl, same.symm⟩

/-- A colon and a name at the end of the text are symbols at the end of the row. Those of the name
are bare, since neither the colon nor a character of the name is a backslash. -/
theorem written_state (us : List Symbol) (front state : List Char)
    (each : ∀ c ∈ state, isStateChar c) (text : written us = front ++ ':' :: state) :
    ∃ before u tail, us = before ++ u :: tail ∧ tail.map Symbol.bare? = state.map some ∧
      ((u.bare? = some ':' ∧ front = written before) ∨
        u.bare? = none ∧ front = written before ++ ['\\']) := by
  induction state using List.reverseRecOn generalizing us with
  | nil =>
    obtain ⟨before, u, rfl, ends⟩ := written_concat us front ':' text
    exact ⟨before, u, [], rfl, rfl, ends⟩
  | append_singleton state c ih =>
    have parts : written us = (front ++ ':' :: state) ++ [c] := by simpa using text
    obtain ⟨shorter, v, rfl, ⟨bare, rest⟩ | ⟨-, rest⟩⟩ := written_concat us _ c parts
    · have fewer : ∀ c ∈ state, isStateChar c := fun d member => each d (by simp [member])
      obtain ⟨before, u, tail, rfl, name, ends⟩ := ih shorter fewer rest.symm
      exact ⟨before, u, tail ++ [v], by simp, by simp [name, bare], ends⟩
    · have last : (':' :: state).getLast? = some '\\' := by
        have ends := congrArg List.getLast? rest
        rwa [List.getLast?_append_of_ne_nil _ (by simp), List.getLast?_concat] at ends
      rcases List.mem_cons.mp (List.mem_of_getLast? last) with colon | member
      · cases colon
      · exact absurd (each '\\' (by simp [member])) (by decide)

theorem EndsInState.written_eq {us before : List Symbol} {colons : Nat} {state : List Char}
    (ends : EndsInState us before colons state) :
    written us = written before ++ (List.replicate colons ':' ++ state) := by
  obtain ⟨tail, rfl, bare⟩ := ends.row
  rw [written_append, (bare_text tail _ bare).1]

theorem splitState_written_single {us before : List Symbol} {state : List Char}
    (ends : EndsInState us before 1 state) :
    splitState (written us) =
      if (spelled before).getLast? = some '\\' then (written us, none)
      else (written before, some state) := by
  have text : written us = written before ++ ':' :: state := ends.written_eq
  rw [text, ← written_getLast]
  split
  next guard => exact splitState_guarded _ state ends.named guard
  next bare =>
    apply splitState_single _ state ends.named bare
    intro front colon
    -- a bare colon would belong to the state
    obtain ⟨earlier, u, rfl, ⟨mark, -⟩ | ⟨-, rfl⟩⟩ := written_concat before front ':' colon
    · exact absurd (by simpa using mark) (ends.both rfl)
    · exact List.getLast?_concat

theorem splitState_written_double {us before : List Symbol} {state : List Char}
    (ends : EndsInState us before 2 state) :
    splitState (written us) =
      if (spelled before).getLast? = some '\\' then (written before ++ [':'], some state)
      else (written before, some state) := by
  have text : written us = written before ++ ':' :: ':' :: state := ends.written_eq
  rw [text, ← written_getLast]
  split
  next guard =>
    have split := splitState_single (written before ++ [':']) state ends.named (by simp) (by
      intro front colon
      rwa [← (List.append_inj' colon rfl).1])
    rwa [List.append_assoc, List.singleton_append] at split
  next bare => exact splitState_double _ state ends.named bare

theorem splitState_written_stateless (us : List Symbol)
    (absent : ∀ before colons state, ¬EndsInState us before colons state) :
    splitState (written us) = (written us, none) := by
  by_cases found : ∃ front state, IsState state ∧ written us = front ++ ':' :: state
  · obtain ⟨front, state, named, text⟩ := found
    obtain ⟨before, u, tail, row, name, ⟨mark, -⟩ | ⟨-, rfl⟩⟩ :=
      written_state us front state named.chars text
    · exfalso
      by_cases double : before.getLast?.bind Symbol.bare? = some ':'
      · obtain ⟨v, last, second⟩ := Option.bind_eq_some_iff.mp double
        obtain ⟨earlier, rfl⟩ := List.getLast?_eq_some_iff.mp last
        exact absent earlier 2 state
          ⟨⟨v :: u :: tail, by simp [row], by simp [second, mark, name]⟩, .inr rfl, by simp, named⟩
      · exact absent before 1 state
          ⟨⟨u :: tail, row, by simp [mark, name]⟩, .inl rfl, fun _ => double, named⟩
    · rw [text]
      exact splitState_guarded _ state named List.getLast?_concat
  · apply splitState_stateless
    intro front state named text
    exact found ⟨front, state, named, text⟩

/-- A class as it is written: a point and a row of symbols. -/
def classText (us : List Symbol) : String := String.ofList ('.' :: written us)

theorem styled_class (us : List Symbol) (name : List Char) (state : Option (List Char))
    (split : splitState (written us) = (name, state)) :
    styled (classText us) = ⟨String.ofList (unescape name), state.map String.ofList⟩ := by
  have alone : compounds ('.' :: written us) = ['.' :: written us] :=
    compounds_text ⟨.bare '.' (by decide) :: us, by simp⟩
  have name : target ['.' :: written us] = written us := rfl
  simp only [styled, classText, String.toList_ofList, alone, name, split]

section Readings

variable {us before : List Symbol} {colons : Nat} {state : List Char}

theorem styled_state (ends : EndsInState us before colons state)
    (bare : (spelled before).getLast? ≠ some '\\') :
    styled (classText us) = ⟨String.ofList (spelled before), some (String.ofList state)⟩ := by
  have split : splitState (written us) = (written before, some state) := by
    rcases ends.few with rfl | rfl
    · rw [splitState_written_single ends, if_neg bare]
    · rw [splitState_written_double ends, if_neg bare]
  rw [styled_class us _ _ split, unescape_written, Option.map_some]

theorem styled_stateless (absent : ∀ before colons state, ¬EndsInState us before colons state) :
    styled (classText us) = ⟨String.ofList (spelled us), none⟩ := by
  rw [styled_class us _ _ (splitState_written_stateless us absent), unescape_written,
    Option.map_none]

/-- The colon is taken for an escaped one, and so there is no state. -/
theorem styled_guarded_single (ends : EndsInState us before 1 state)
    (guard : (spelled before).getLast? = some '\\') :
    styled (classText us) = ⟨String.ofList (spelled us), none⟩ := by
  have split := splitState_written_single ends
  rw [if_pos guard] at split
  rw [styled_class us _ _ split, unescape_written, Option.map_none]

/-- The first colon is taken for an escaped one, and so it stays with the name. -/
theorem styled_guarded_double (ends : EndsInState us before 2 state)
    (guard : (spelled before).getLast? = some '\\') :
    styled (classText us) =
      ⟨String.ofList (spelled before ++ [':']), some (String.ofList state)⟩ := by
  have split := splitState_written_double ends
  rw [if_pos guard] at split
  have name : written before ++ [':'] = written (before ++ [.bare ':' (by decide)]) := by
    rw [written_append]
    rfl
  rw [name] at split
  rw [styled_class us _ _ split, unescape_written, spelled, List.map_append]
  rfl

end Readings

/-- The symbols and the styled class agree: there is a state exactly if the row ends in one, and
then it is that state, of the class that the symbols before it spell. -/
structure ReadsSymbols (us : List Symbol) (s : Styled) : Prop where
  state_iff : s.pseudo.isSome ↔ ∃ before colons state, EndsInState us before colons state
  parts : ∀ before colons state, EndsInState us before colons state →
    s = ⟨String.ofList (spelled before), some (String.ofList state)⟩

/-- A class is read as its symbols tell exactly if no backslash of its name stands right before the
colons of its state. Where one does, a single colon starts no state, and of two colons the first one
goes to the name. -/
theorem readsSymbols_iff (us : List Symbol) :
    (ReadsSymbols us (styled (classText us)) ↔
      ∀ before colons state, EndsInState us before colons state →
        (spelled before).getLast? ≠ some '\\') ∧
    (∀ before state, EndsInState us before 1 state → (spelled before).getLast? = some '\\' →
      styled (classText us) = ⟨String.ofList (spelled us), none⟩) ∧
    (∀ before state, EndsInState us before 2 state → (spelled before).getLast? = some '\\' →
      styled (classText us) =
        ⟨String.ofList (spelled before ++ [':']), some (String.ofList state)⟩) ∧
    ((∀ before colons state, ¬EndsInState us before colons state) →
      styled (classText us) = ⟨String.ofList (spelled us), none⟩) := by
  refine ⟨⟨?_, ?_⟩, fun _ _ => styled_guarded_single, fun _ _ => styled_guarded_double,
    styled_stateless⟩
  · intro reads before colons state ends guard
    have told := reads.parts before colons state ends
    rcases ends.few with rfl | rfl
    · rw [styled_guarded_single ends guard] at told
      exact absurd (congrArg Styled.pseudo told) (by simp)
    · rw [styled_guarded_double ends guard] at told
      have longer := congrArg List.length (congrArg String.toList (congrArg Styled.className told))
      simp at longer
  · intro bare
    have parts : ∀ before colons state, EndsInState us before colons state →
        styled (classText us) = ⟨String.ofList (spelled before), some (String.ofList state)⟩ :=
      fun before colons state ends => styled_state ends (bare before colons state ends)
    refine ⟨⟨?_, ?_⟩, parts⟩
    · intro pseudo
      by_contra absent
      have none : ∀ before colons state, ¬EndsInState us before colons state :=
        fun before colons state ends => absent ⟨before, colons, state, ends⟩
      rw [styled_stateless none] at pseudo
      cases pseudo
    · rintro ⟨before, colons, state, ends⟩
      rw [parts before colons state ends]
      rfl

theorem hover_isState : IsState "hover".toList :=
  ⟨'h', "over".toList, rfl, by decide, by
    intro c member
    exact .inl (List.all_eq_true.mp (by decide : "over".toList.all Char.isLower) c member)⟩

/-- The symbols of `:hover`, after as many colons more. -/
def hovering (more : Nat) : List Symbol :=
  List.replicate more (.bare ':' (by decide)) ++
    bareRow ":hover".toList (solid_of_all (by decide))

/-- A name that ends in a character which has to be escaped. -/
def nameEndingIn (c : Char) (solid : Text.isBlank c = false) : List Symbol :=
  [.bare 'm' (by decide), .escaped c solid]

/-- A name that ends in an escaped colon is read well. In front of two colons a name that ends in a
backslash gets the first of them. -/
theorem readsSymbols_iff_colons :
    classText (nameEndingIn ':' (by decide) ++ hovering 0) = ".m\\::hover" ∧
    ReadsSymbols (nameEndingIn ':' (by decide) ++ hovering 0) (styled ".m\\::hover") ∧
    EndsInState (nameEndingIn '\\' (by decide) ++ hovering 1) (nameEndingIn '\\' (by decide)) 2
      "hover".toList ∧
    classText (nameEndingIn '\\' (by decide) ++ hovering 1) = ".m\\\\::hover" ∧
    styled ".m\\\\::hover" = ⟨"m\\:", some "hover"⟩ := by
  have double : EndsInState (nameEndingIn '\\' (by decide) ++ hovering 1)
      (nameEndingIn '\\' (by decide)) 2 "hover".toList :=
    ⟨⟨hovering 1, rfl, by decide⟩, .inr rfl, by simp, hover_isState⟩
  have agrees := (readsSymbols_iff (nameEndingIn ':' (by decide) ++ hovering 0)).1
  have differs := (readsSymbols_iff (nameEndingIn '\\' (by decide) ++ hovering 1)).2.2.1
  refine ⟨by decide, agrees.mpr ?_, double, by decide, differs _ _ double (by decide)⟩
  intro before colons state ends guard
  obtain ⟨tail, row, -⟩ := ends.row
  have held : '\\' ∈ spelled (before ++ tail) := by
    rw [spelled, List.map_append]
    exact List.mem_append_left _ (List.mem_of_getLast? guard)
  rw [← row] at held
  exact absurd held (by decide)

/-- A name that ends in a backslash gets the whole state if there is one colon. -/
theorem readsSymbols_fails :
    EndsInState (nameEndingIn '\\' (by decide) ++ hovering 0) (nameEndingIn '\\' (by decide)) 1
      "hover".toList ∧
    classText (nameEndingIn '\\' (by decide) ++ hovering 0) = ".m\\\\:hover" ∧
    styled ".m\\\\:hover" = ⟨"m\\:hover", none⟩ ∧
    ¬ReadsSymbols (nameEndingIn '\\' (by decide) ++ hovering 0) (styled ".m\\\\:hover") := by
  have single : EndsInState (nameEndingIn '\\' (by decide) ++ hovering 0)
      (nameEndingIn '\\' (by decide)) 1 "hover".toList :=
    ⟨⟨hovering 0, rfl, by decide⟩, .inl rfl, by decide, hover_isState⟩
  have stateless : styled ".m\\\\:hover" = ⟨"m\\:hover", none⟩ := by decide +kernel
  refine ⟨single, by decide, stateless, ?_⟩
  intro reads
  have told := reads.parts _ _ _ single
  rw [stateless] at told
  exact absurd told (by decide)

end ElmStyle.Css.Selector
