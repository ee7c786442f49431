import ElmStyle.Proofs.Exemption.Merging
import ElmStyle.Proofs.Success

/-!
# Written exemptions

A table is written as an object of rules by property. It is refused at the first of its members that
is not of the documented shape. Otherwise the table exempts what the rules say, in whatever order
they are written, and a table that has been read, or merged of such tables, is read back from its
listing.
-/
namespace ElmStyle

namespace Exemption

/-- The values are listed once and in order, so that equal sets of values are equal lists. -/
def Canonical : Exemption → Prop
  | .all => True
  | .values listed => listed.Pairwise (· ≤ ·) ∧ listed.Nodup

@[simp] theorem all_canonical : Exemption.all.Canonical := trivial

theorem covers_ofValues (value : String) (listed : List String) :
    (ofValues listed).covers value ↔ value ∈ listed := by
  rw [ofValues, covers, List.contains_iff_mem, Text.mem_sorted, List.mem_eraseDups]

@[simp] theorem ofValues_canonical (listed : List String) : (ofValues listed).Canonical :=
  ⟨Text.sorted_pairwise _, (Text.sorted_perm _).nodup_iff.mpr (Json.nodup_eraseDups listed)⟩

/-- The order of the values and how often each is given do not matter. -/
theorem ofValues_eq (given listed : List String) (canonical : (Exemption.values listed).Canonical)
    (same : ∀ value, value ∈ given ↔ value ∈ listed) : ofValues given = .values listed := by
  have reordered : given.eraseDups.Perm listed := by
    rw [List.perm_ext_iff_of_nodup (Json.nodup_eraseDups given) canonical.2]
    intro value
    rw [List.mem_eraseDups, same]
  rw [ofValues, Text.sorted_eq canonical.1 reordered]

end Exemption

namespace Json.Value

theorem strings_eq_some_iff (items : List Value) (values : List String) :
    strings? items = some values ↔ items = values.map .string := by
  induction items generalizing values with
  | nil => cases values <;> simp [strings?]
  | cons item rest ih =>
    cases item with
    | string s =>
      rw [strings?, Option.map_eq_some_iff]
      cases values with
      | nil => simp
      | cons first later => simp [ih, and_comm]
    | _ => cases values <;> simp [strings?]

end Json.Value

namespace ExemptionTable

/-! ## Members of a written table -/

/-- The shape of a rule: the wildcard or a list of strings. -/
inductive IsRule : Json.Value → Prop
  | wildcard : IsRule (.string "*")
  | listed (values : List String) : IsRule (.array (values.map .string))

/-- The shape of a member: a property in lower case with a rule. -/
structure IsMember (pair : String × Json.Value) : Prop where
  filled : pair.1 ≠ ""
  lowered : Text.isLowered pair.1 = true
  rule : IsRule pair.2

/-- The rule exempts the value. A wildcard among listed values is just a value. -/
inductive RuleCovers (value : String) : Json.Value → Prop
  | wildcard : RuleCovers value (.string "*")
  | listed (values : List String) (member : value ∈ values) :
    RuleCovers value (.array (values.map .string))

/-- What is said of a member that is not of the shape: first the property is looked at, then the
rule. -/
inductive Describes : String × Json.Value → Invalid → Prop
  | property {property : String} {rule : Json.Value}
    (wrong : property = "" ∨ Text.isLowered property = false) :
    Describes (property, rule) (.property property)
  | rule {property : String} {rule : Json.Value} (filled : property ≠ "")
    (lowered : Text.isLowered property = true) (wrong : ¬IsRule rule) :
    Describes (property, rule) (.rule property rule)

theorem ofJson_eq_some_iff (rule : Json.Value) (e : Exemption) :
    Exemption.ofJson? rule = some e ↔ (rule = .string "*" ∧ e = .all) ∨
      ∃ values : List String, rule = .array (values.map .string) ∧ e = .ofValues values := by
  cases rule with
  | string s =>
    by_cases wild : s = "*"
    · simp [Exemption.ofJson?, Exemption.wildcard, wild, eq_comm]
    · simp [Exemption.ofJson?, Exemption.wildcard, wild]
  | array items =>
    simp [Exemption.ofJson?, Json.Value.strings_eq_some_iff, @eq_comm _ e]
  | _ => simp [Exemption.ofJson?]

theorem isRule_iff (rule : Json.Value) : IsRule rule ↔ ∃ e, Exemption.ofJson? rule = some e := by
  simp only [ofJson_eq_some_iff]
  constructor
  · rintro (_ | values)
    · exact ⟨.all, .inl ⟨rfl, rfl⟩⟩
    · exact ⟨.ofValues values, .inr ⟨values, rfl, rfl⟩⟩
  · rintro ⟨e, ⟨rfl, -⟩ | ⟨values, rfl, -⟩⟩
    · exact .wildcard
    · exact .listed values

theorem ruleCovers_iff (value : String) (rule : Json.Value) :
    RuleCovers value rule ↔ (Exemption.ofJson? rule).any (·.covers value) = true := by
  simp only [Option.any_eq_true, ofJson_eq_some_iff]
  constructor
  · rintro (_ | ⟨values, member⟩)
    · exact ⟨.all, .inl ⟨rfl, rfl⟩, rfl⟩
    · exact ⟨_, .inr ⟨values, rfl, rfl⟩, (Exemption.covers_ofValues value values).mpr member⟩
  · rintro ⟨e, ⟨rfl, -⟩ | ⟨values, rfl, rfl⟩, covered⟩
    · exact .wildcard
    · exact .listed values ((Exemption.covers_ofValues value values).mp covered)

/-- A member is read exactly if it has the shape, and else it is described. -/
theorem readMember_cases (pair : String × Json.Value) :
    (IsMember pair ∧ ∃ e, Exemption.ofJson? pair.2 = some e ∧
      readMember pair.1 pair.2 = .ok (pair.1, e)) ∨
    ¬IsMember pair ∧ ∃ e, Describes pair e ∧ readMember pair.1 pair.2 = .error e := by
  obtain ⟨property, rule⟩ := pair
  unfold readMember
  dsimp only
  split
  next wrong =>
    have wrong : property = "" ∨ Text.isLowered property = false := by simpa using wrong
    refine .inr ⟨?_, _, .property wrong, rfl⟩
    intro member
    rcases wrong with empty | raised
    · exact member.filled empty
    · exact absurd member.lowered (by simp [raised])
  next right =>
    obtain ⟨filled, lowered⟩ : property ≠ "" ∧ Text.isLowered property = true := by
      simpa using right
    cases read : Exemption.ofJson? rule with
    | some e => exact .inl ⟨⟨filled, lowered, (isRule_iff rule).mpr ⟨e, read⟩⟩, e, rfl, rfl⟩
    | none =>
      have wrong : ¬IsRule rule := by simp [isRule_iff, read]
      exact .inr ⟨fun member => wrong member.rule, _, .rule filled lowered wrong, rfl⟩

theorem readMember_ok (pair : String × Json.Value) (entry : String × Exemption)
    (success : readMember pair.1 pair.2 = .ok entry) :
    IsMember pair ∧ pair.1 = entry.1 ∧ Exemption.ofJson? pair.2 = some entry.2 := by
  rcases readMember_cases pair with ⟨member, e, read, same⟩ | ⟨-, e, -, failure⟩
  · rw [same] at success
    cases success
    exact ⟨member, rfl, read⟩
  · rw [failure] at success
    cases success

theorem readMember_error (pair : String × Json.Value) (e : Invalid)
    (failure : readMember pair.1 pair.2 = .error e) : ¬IsMember pair ∧ Describes pair e := by
  rcases readMember_cases pair with ⟨-, other, -, success⟩ | ⟨wrong, other, described, same⟩
  · rw [success] at failure
    cases failure
  · rw [same] at failure
    cases failure
    exact ⟨wrong, described⟩

/-! ## Reading a table -/

theorem ofMembers_ok_iff (pairs : List (String × Json.Value)) :
    (∃ t, ofMembers pairs = .ok t) ↔ ∀ pair ∈ Json.members pairs, IsMember pair := by
  have failed := mapM_failure_iff (fun pair => readMember pair.1 pair.2) (Json.members pairs)
  have each : ∀ pair : String × Json.Value,
      (∃ e, readMember pair.1 pair.2 = .error e) ↔ ¬IsMember pair := by
    intro pair
    rcases readMember_cases pair with ⟨member, e, -, success⟩ | ⟨wrong, e, -, failure⟩
    · simp [success, member]
    · simp [failure, wrong]
  simp only [each] at failed
  rw [ofMembers]
  cases outcome : (Json.members pairs).mapM fun pair => readMember pair.1 pair.2 with
  | ok entries => simpa [outcome, Except.map] using failed
  | error e => simpa [outcome, Except.map] using failed

/-- The error is about the first member that is not of the shape. -/
theorem ofMembers_error (pairs : List (String × Json.Value)) (e : Invalid)
    (failure : ofMembers pairs = .error e) :
    ∃ before bad after, Json.members pairs = before ++ bad :: after ∧
      (∀ pair ∈ before, IsMember pair) ∧ ¬IsMember bad ∧ Describes bad e := by
  rw [ofMembers] at failure
  cases outcome : (Json.members pairs).mapM fun pair => readMember pair.1 pair.2 with
  | ok entries =>
    rw [outcome] at failure
    cases failure
  | error e =>
    rw [outcome] at failure
    cases failure
    obtain ⟨before, bad, after, split, passed, failed⟩ := mapM_first_failure _ _ _ outcome
    refine ⟨before, bad, after, split, ?_, readMember_error bad e failed⟩
    intro pair member
    obtain ⟨entry, success⟩ := passed pair member
    exact (readMember_ok pair entry success).1

theorem ofMembers_made (pairs : List (String × Json.Value)) (t : ExemptionTable)
    (success : ofMembers pairs = .ok t) :
    List.Forall₂ (fun pair entry =>
        IsMember pair ∧ pair.1 = entry.1 ∧ Exemption.ofJson? pair.2 = some entry.2)
      (Json.members pairs) t.entries := by
  obtain ⟨entries, each, rfl⟩ := map_success success
  have made := (mapM_success _ _ _ each).imp readMember_ok
  -- The entries have the names of the members, so that none of them replaces another.
  have named := Json.names_forall₂ (made.imp fun _ _ found => found.2.1)
  have kept : (of entries).entries = entries :=
    Json.members_eq_self entries (named ▸ Json.nodup_members pairs)
  rwa [kept]

/-- The last rule of a property is the one that counts. -/
theorem get?_ofMembers (pairs : List (String × Json.Value)) (t : ExemptionTable)
    (success : ofMembers pairs = .ok t) (property : String) :
    t.get? property = ((Json.members pairs).lookup property).bind Exemption.ofJson? :=
  Json.lookup_forall₂ ((ofMembers_made pairs t success).imp fun _ _ => And.right) property

theorem isExempt_ofMembers (pairs : List (String × Json.Value)) (t : ExemptionTable)
    (success : ofMembers pairs = .ok t) (property value : String) :
    t.isExempt property value ↔
      ∃ rule, (property, rule) ∈ Json.members pairs ∧ RuleCovers value rule := by
  rw [isExempt, get?_ofMembers pairs t success]
  simp only [Json.mem_iff_lookup _ (Json.nodup_members pairs), ruleCovers_iff]
  cases (Json.members pairs).lookup property with
  | none => simp
  | some rule => simp

/-- Tables that are written with the same members are the same. -/
theorem ofMembers_perm (pairs others : List (String × Json.Value)) (t : ExemptionTable)
    (success : ofMembers pairs = .ok t) (same : (Json.members others).Perm (Json.members pairs)) :
    ∃ other, ofMembers others = .ok other ∧ other.same t := by
  have members : ∀ pair ∈ Json.members others, IsMember pair := by
    intro pair member
    exact (ofMembers_ok_iff pairs).mp ⟨t, success⟩ pair (same.mem_iff.mp member)
  obtain ⟨other, read⟩ := (ofMembers_ok_iff others).mpr members
  refine ⟨other, read, (same_iff _ _).mpr fun property => ?_⟩
  rw [get?_ofMembers others other read, get?_ofMembers pairs t success,
    (Json.perm_iff_lookup _ _ (Json.nodup_members others) (Json.nodup_members pairs)).mp same]

/-! ## Reading a listing back -/

/-- The tables that come from written ones and the stock one by merging. -/
inductive Built : ExemptionTable → Prop
  | stock : Built .stock
  | written {pairs : List (String × Json.Value)} {t : ExemptionTable}
    (read : ofMembers pairs = .ok t) : Built t
  | merged {t other : ExemptionTable} (first : Built t) (second : Built other) :
    Built (t.merge other)

/-- Each property is written in lower case, and each exemption lists its values once. -/
def WellFormed (t : ExemptionTable) : Prop :=
  ∀ entry ∈ t.entries, entry.1 ≠ "" ∧ Text.isLowered entry.1 = true ∧ entry.2.Canonical

theorem stock_wellFormed : stock.WellFormed := by
  have named : ∀ entry ∈ stock.entries, entry.1 ≠ "" ∧ Text.isLowered entry.1 = true := by
    decide +kernel
  have canonical : ∀ entry ∈ stock.entries, entry.2.Canonical := by
    simp [stock]
  intro entry held
  exact ⟨(named entry held).1, (named entry held).2, canonical entry held⟩

theorem ofMembers_wellFormed (pairs : List (String × Json.Value)) (t : ExemptionTable)
    (success : ofMembers pairs = .ok t) : t.WellFormed := by
  intro entry held
  obtain ⟨pair, -, member, same, read⟩ :=
    forall₂_mem_right (ofMembers_made pairs t success) entry held
  refine ⟨same ▸ member.filled, same ▸ member.lowered, ?_⟩
  rcases (ofJson_eq_some_iff pair.2 entry.2).mp read with ⟨-, all⟩ | ⟨values, -, listed⟩
  · rw [all]
    exact Exemption.all_canonical
  · rw [listed]
    exact Exemption.ofValues_canonical values

theorem WellFormed.merge {t other : ExemptionTable} (first : t.WellFormed)
    (second : other.WellFormed) : (t.merge other).WellFormed := by
  rintro ⟨property, e⟩ held
  rw [mem_entries_iff, get?_merge, Option.or_eq_some_iff] at held
  rcases held with later | ⟨-, earlier⟩
  · exact second _ ((mem_entries_iff other property e).mpr later)
  · exact first _ ((mem_entries_iff t property e).mpr earlier)

theorem Built.wellFormed {t : ExemptionTable} (built : Built t) : t.WellFormed := by
  induction built with
  | stock => exact stock_wellFormed
  | written read => exact ofMembers_wellFormed _ _ read
  | merged _ _ first second => exact first.merge second

/-- The rule lists the exemption: the wildcard, or all its values in whatever order. -/
inductive Lists : Exemption → Json.Value → Prop
  | all : Lists .all (.string "*")
  | values {listed given : List String} (same : ∀ value, value ∈ given ↔ value ∈ listed) :
    Lists (.values listed) (.array (given.map .string))

/-- The pairs list the table: each of its properties, in whatever order, with its exemption. -/
def IsListing (t : ExemptionTable) (pairs : List (String × Json.Value)) : Prop :=
  ∃ entries : List (String × Exemption), entries.Perm t.entries ∧
    List.Forall₂ (fun entry pair => entry.1 = pair.1 ∧ Lists entry.2 pair.2) entries pairs

theorem ofJson_of_lists {e : Exemption} {rule : Json.Value} (canonical : e.Canonical)
    (lists : Lists e rule) : Exemption.ofJson? rule = some e := by
  cases lists with
  | all => rfl
  | @values listed given same =>
    refine (ofJson_eq_some_iff _ _).mpr (.inr ⟨given, rfl, ?_⟩)
    exact (Exemption.ofValues_eq given listed canonical same).symm

theorem ofMembers_listing (t : ExemptionTable) (wellFormed : t.WellFormed)
    (pairs : List (String × Json.Value)) (listing : IsListing t pairs) :
    ∃ other, ofMembers pairs = .ok other ∧ other.same t := by
  obtain ⟨entries, reordered, listed⟩ := listing
  have each : ∀ entry ∈ entries, entry.1 ≠ "" ∧ Text.isLowered entry.1 = true ∧
      entry.2.Canonical := fun entry held => wellFormed entry (reordered.mem_iff.mp held)
  have made : List.Forall₂ (fun (entry : String × Exemption) (pair : String × Json.Value) =>
      IsMember pair ∧ pair.1 = entry.1 ∧ Exemption.ofJson? pair.2 = some entry.2)
      entries pairs := by
    refine ((List.forall₂_and_left _ _).mpr ⟨each, listed⟩).imp ?_
    rintro entry pair ⟨⟨filled, lowered, canonical⟩, named, lists⟩
    have read := ofJson_of_lists canonical lists
    exact ⟨⟨named ▸ filled, named ▸ lowered, (isRule_iff _).mpr ⟨_, read⟩⟩, named.symm, read⟩
  have entriesDistinct : (Json.names entries).Nodup :=
    (reordered.map Prod.fst).nodup_iff.mpr t.distinct
  have pairsDistinct : (Json.names pairs).Nodup := by
    rwa [← Json.names_forall₂ (listed.imp fun _ _ => And.left)]
  have members : ∀ pair ∈ Json.members pairs, IsMember pair := by
    intro pair member
    obtain ⟨entry, -, isMember, -⟩ :=
      forall₂_mem_right made pair (Json.mem_of_mem_members pairs pair member)
    exact isMember
  obtain ⟨other, read⟩ := (ofMembers_ok_iff pairs).mpr members
  refine ⟨other, read, (same_iff _ _).mpr fun property => ?_⟩
  calc other.get? property
      = (pairs.lookup property).bind Exemption.ofJson? := by
        rw [get?_ofMembers pairs other read, Json.lookup_members,
          Json.lookup_reverse pairs pairsDistinct]
    _ = entries.lookup property :=
        (Json.lookup_forall₂ (made.flip.imp fun _ _ => And.right) property).symm
    _ = t.get? property :=
        (Json.perm_iff_lookup _ _ entriesDistinct t.distinct).mp reordered property

/-- A written table is refused exactly if one of its members, each property at its first place and
with its last rule, is not of the shape, and the error is about the first such member. Otherwise it
exempts what the rules say, in whatever order they stand, and every table that is built of written
ones and the stock one is read back from its listing. -/
theorem ofMembers_reads_the_shape (pairs : List (String × Json.Value)) :
    ((∃ e, ofMembers pairs = .error e) ↔ ∃ pair ∈ Json.lastByName pairs, ¬IsMember pair) ∧
    (∀ e, ofMembers pairs = .error e →
      ∃ before bad after, Json.lastByName pairs = before ++ bad :: after ∧
        (∀ pair ∈ before, IsMember pair) ∧ ¬IsMember bad ∧ Describes bad e) ∧
    (∀ t, ofMembers pairs = .ok t →
      (∀ property value, t.isExempt property value ↔
        ∃ rule, (property, rule) ∈ Json.lastByName pairs ∧ RuleCovers value rule) ∧
      ∀ others : List (String × Json.Value),
        (Json.lastByName others).Perm (Json.lastByName pairs) →
        ∃ other, ofMembers others = .ok other ∧ other.same t) ∧
    ∀ t, Built t → ∀ listing, IsListing t listing →
      ∃ other, ofMembers listing = .ok other ∧ other.same t := by
  simp only [← Json.members_eq_lastByName]
  refine ⟨?_, ofMembers_error pairs, ?_, ?_⟩
  · have accepted := ofMembers_ok_iff pairs
    cases outcome : ofMembers pairs with
    | ok t => simpa [outcome] using accepted
    | error e => simpa [outcome] using accepted
  · intro t success
    exact ⟨isExempt_ofMembers pairs t success, fun others => ofMembers_perm pairs others t success⟩
  · intro t built listing listed
    exact ofMembers_listing t built.wellFormed listing listed

/-- A wrong rule that a later one replaces, and a list with a wildcard in it. -/
def replacedRule : List (String × Json.Value) := [
  ("gap", .string "1rem"), ("width", .array (["*", "auto", "*"].map .string)), ("gap", .string "*")]

/-- A right rule that a later one replaces, before a property that is not in lower case. -/
def spoiltRule : List (String × Json.Value) := [
  ("gap", .string "*"), ("Gap", .string "*"), ("gap", .string "1rem")]

theorem ofMembers_reads_the_shape_replaced :
    let t : ExemptionTable := .of [("gap", .all), ("width", .ofValues ["*", "auto", "*"])]
    let listing : List (String × Json.Value) :=
      [("width", .array (["auto", "*"].map .string)), ("gap", .string "*")]
    (ofMembers spoiltRule = .error (.rule "gap" (.string "1rem")) ∧
      ∃ before bad after,
        [("gap", Json.Value.string "1rem"), ("Gap", .string "*")] = before ++ bad :: after ∧
        (∀ pair ∈ before, IsMember pair) ∧ ¬IsMember bad ∧
        Describes bad (.rule "gap" (.string "1rem"))) ∧
    (ofMembers replacedRule = .ok t ∧ t.isExempt "width" "*") ∧
    Built (t.merge t) ∧ IsListing (t.merge t) listing ∧
    ∃ other, ofMembers listing = .ok other ∧ other.same (t.merge t) := by
  intro t listing
  have read : ofMembers replacedRule = .ok t := rfl
  obtain ⟨-, -, accepted, readBack⟩ := ofMembers_reads_the_shape replacedRule
  obtain ⟨-, described, -⟩ := ofMembers_reads_the_shape spoiltRule
  have starred : ("width", Json.Value.array (["*", "auto", "*"].map .string)) ∈
      Json.lastByName replacedRule := List.mem_cons_of_mem _ List.mem_cons_self
  have built : Built (t.merge t) := .merged (.written read) (.written read)
  have listed : IsListing (t.merge t) listing := by
    refine ⟨[("width", .ofValues ["*", "auto", "*"]), ("gap", .all)], List.Perm.swap _ _ _,
      .cons ⟨rfl, .values ?_⟩ (.cons ⟨rfl, .all⟩ .nil)⟩
    intro value
    simp [or_comm]
  exact ⟨⟨rfl, described _ rfl⟩,
    ⟨read, ((accepted t read).1 "width" "*").mpr ⟨_, starred, .listed _ (by decide)⟩⟩,
    built, listed, readBack (t.merge t) built listing listed⟩

end ExemptionTable

end ElmStyle
