import Mathlib
import LedgerView.Proofs.Alias
import LedgerView.Proofs.BlockHash
import LedgerView.Proofs.EntityId.Grammar
import LedgerView.Proofs.Text.Hex
/-!
# The texts of accounts

An account is named by the text of an id, or by `0x` and the digits of an alias (`parse_eq_iff`). A
selector is read back from what it says about the account (`parse_account_text`), and what a balance
is labelled with asks for the balance of the same account again (`eval_balanceQuery_nameOf`).
-/

namespace LedgerView

namespace AccountSelector

variable {text : String} {bytes : Bytes} {id : EntityId} {what : BadArgument}

/-- The text starts with the mark of an alias. -/
def IsMarked (text : String) : Prop :=
  ['0', 'x'] <+: text.toList

/-- The text is the mark and the digits, in either case, that spell at least one byte. -/
def SpellsAlias (text : String) (bytes : Bytes) : Prop :=
  ∃ digits, text.toList = '0' :: 'x' :: digits ∧ BlockHash.IsDigits digits ∧
    digits.map Char.toLower = Text.encodeHex bytes

/-- Why a text names no account, by what is left of it without the blanks around it. -/
inductive Refused (text core : String) : BadArgument → Prop where
  | blank (empty : core = "") : Refused text core .emptyAccount
  | noDigits (bare : core = "0x") : Refused text core .emptyAlias
  | noAlias (digits : List Char) (e : Text.HexError) (marked : core.toList = '0' :: 'x' :: digits)
    (wrong : Text.decodeHex (Text.utf8 digits) = .error e) :
    Refused text core (.malformedAlias text e)
  | noId (e : EntityIdError) (nonempty : core ≠ "") (unmarked : ¬IsMarked core)
    (wrong : EntityId.parse core = .error e) : Refused text core (.malformedAccount e)

/-- What a text names, or why it names nothing. -/
inductive Reads (text core : String) : Except BadArgument AccountSelector → Prop where
  | byAlias (bytes : Bytes) (spelled : SpellsAlias core bytes) :
    Reads text core (.ok (.byAlias bytes))
  | byId (id : EntityId) (unmarked : ¬IsMarked core) (read : EntityId.parse core = .ok id) :
    Reads text core (.ok (.byId id))
  | refused (what : BadArgument) (why : Refused text core what) : Reads text core (.error what)

/-! ## Reading -/

theorem isMarked_iff : IsMarked text ↔ ∃ digits, text.toList = '0' :: 'x' :: digits :=
  exists_congr fun _ => eq_comm

theorem spellsAlias_iff {core : String} :
    SpellsAlias core bytes ↔ bytes ≠ [] ∧ ∃ digits, core.toList = '0' :: 'x' :: digits ∧
      Text.decodeHex (Text.utf8 digits) = .ok bytes := by
  simp only [Text.decodeHex_utf8_eq_ok_iff]
  constructor
  · rintro ⟨digits, hcore, hdigits, hspelled⟩
    refine ⟨?_, digits, hcore, hspelled.symm⟩
    rintro rfl
    exact hdigits.1 (List.map_eq_nil_iff.1 hspelled)
  · rintro ⟨hne, digits, hcore, hspelled⟩
    have hdigits := BlockHash.isDigits_encodeHex hne
    rw [hspelled, BlockHash.isDigits_map_toLower] at hdigits
    exact ⟨digits, hcore, hdigits, hspelled.symm⟩

theorem reads_parseTrimmed (text core : String) :
    Reads text core (parseTrimmed text core.toList) := by
  unfold parseTrimmed
  split
  · next hnil => exact .refused _ (.blank (String.toList_eq_nil_iff.1 hnil))
  · next digits hcore =>
    split
    · next e herror => exact .refused _ (.noAlias digits e hcore herror)
    · next hempty =>
      rw [Text.decodeHex_utf8_eq_ok_iff, Text.encodeHex, eq_comm, List.map_eq_nil_iff] at hempty
      rw [hempty] at hcore
      exact .refused _ (.noDigits (String.toList_injective hcore))
    · next bytes hne hbytes =>
      exact .byAlias bytes (spellsAlias_iff.2 ⟨hne, digits, hcore, hbytes⟩)
  · next hnonempty hunmarked =>
    have hmark : ¬IsMarked core := by
      rw [isMarked_iff]
      rintro ⟨digits, hcore⟩
      exact hunmarked digits hcore
    rw [String.ofList_toList]
    split
    · next e herror =>
      exact .refused _ (.noId e (fun h => hnonempty (by rw [h]; rfl)) hmark herror)
    · next id hid => exact .byId id hmark hid

theorem parseTrimmed_of_unmarked {core : String} (hne : core ≠ "") (hmark : ¬IsMarked core) :
    parseTrimmed text core.toList =
      ((EntityId.parse core).mapError BadArgument.malformedAccount).map byId := by
  rw [isMarked_iff] at hmark
  unfold parseTrimmed
  split
  · next hnil => exact absurd (String.toList_eq_nil_iff.1 hnil) hne
  · next digits h => exact absurd ⟨digits, h⟩ hmark
  · rw [String.ofList_toList]
    cases EntityId.parse core with
    | error e => rfl
    | ok id => rfl

theorem parseTrimmed_of_reads {core : String} {result : Except BadArgument AccountSelector}
    (h : Reads text core result) : parseTrimmed text core.toList = result := by
  cases h with
  | byAlias bytes spelled =>
    obtain ⟨hne, digits, hcore, hbytes⟩ := spellsAlias_iff.1 spelled
    cases bytes with
    | nil => exact absurd rfl hne
    | cons b bytes => simp only [hcore, parseTrimmed, hbytes]
  | byId id unmarked read =>
    have hne : core ≠ "" := by
      rintro rfl
      have hempty : EntityId.parse "" = .error (.malformed "") := by decide
      rw [hempty] at read
      cases read
    rw [parseTrimmed_of_unmarked hne unmarked, read]
    rfl
  | refused what why =>
    cases why with
    | blank empty =>
      rw [empty]
      rfl
    | noDigits bare =>
      rw [bare]
      rfl
    | noAlias digits e marked wrong => simp only [marked, parseTrimmed, wrong]
    | noId e nonempty unmarked wrong =>
      rw [parseTrimmed_of_unmarked nonempty unmarked, wrong]
      rfl

theorem parse_eq_iff {core : String} (hcore : Text.IsTrimmed text.toList core.toList)
    {result : Except BadArgument AccountSelector} :
    parse text = result ↔ Reads text core result := by
  rw [parse, Text.trimChars_eq_iff.2 hcore]
  constructor
  · rintro rfl
    exact reads_parseTrimmed text core
  · exact parseTrimmed_of_reads

section Reading

variable {core : String} (hcore : Text.IsTrimmed text.toList core.toList)

include hcore

theorem parse_eq_alias_iff : parse text = .ok (byAlias bytes) ↔ SpellsAlias core bytes := by
  rw [parse_eq_iff hcore]
  constructor
  · intro h
    cases h with
    | byAlias _ spelled => exact spelled
  · exact .byAlias bytes

theorem parse_eq_id_iff :
    parse text = .ok (byId id) ↔ ¬IsMarked core ∧ EntityId.parse core = .ok id := by
  rw [parse_eq_iff hcore]
  constructor
  · intro h
    cases h with
    | byId _ unmarked read => exact ⟨unmarked, read⟩
  · rintro ⟨hmark, hread⟩
    exact .byId id hmark hread

theorem parse_eq_error_iff : parse text = .error what ↔ Refused text core what := by
  rw [parse_eq_iff hcore]
  constructor
  · intro h
    cases h with
    | refused _ why => exact why
  · exact .refused what

end Reading

/-! ## Reading back -/

theorem isTrimmed_self {core : String} (h : ∀ c ∈ core.toList, Text.isBlank c = false) :
    Text.IsTrimmed core.toList core.toList := by
  refine ⟨[], [], by simp, by simp, by simp, fun c hc => h c ?_, fun c hc => h c ?_⟩
  · exact List.mem_of_mem_head? hc
  · exact List.mem_of_mem_getLast? hc

theorem isMarked_of_mem {core : String} (h : IsMarked core) : 'x' ∈ core.toList := by
  obtain ⟨digits, hcore⟩ := isMarked_iff.1 h
  rw [hcore]
  exact List.mem_cons_of_mem _ List.mem_cons_self

theorem parse_of_parse_id (h : EntityId.parse text = .ok id) : parse text = .ok (byId id) := by
  have hchars := EntityId.digit_or_dot_of_parse h
  have hblank : ∀ c ∈ text.toList, Text.isBlank c = false := by
    intro c hc
    rcases hchars c hc with hdigit | rfl
    · exact Text.isBlank_of_isHexDigit (by simp [Text.isHexDigit, hdigit])
    · rfl
  have hmark : ¬IsMarked text := by
    intro hmark
    rcases hchars 'x' (isMarked_of_mem hmark) with hdigit | hdot
    · exact absurd hdigit (by decide)
    · exact absurd hdot (by decide)
  exact (parse_eq_iff (isTrimmed_self hblank)).2 (.byId id hmark h)

theorem parse_prefixedHex (hne : bytes ≠ []) :
    parse (Text.prefixedHex bytes) = .ok (byAlias bytes) := by
  have hdigits := BlockHash.isDigits_encodeHex hne
  have hshown : (Text.prefixedHex bytes).toList = '0' :: 'x' :: Text.encodeHex bytes :=
    String.toList_ofList
  have hlower := Text.decodeHex_utf8_eq_ok_iff.1 (Text.decodeHex_encodeHex bytes)
  have hmark : ['0', 'x'] ∈ BlockHash.marks := by decide
  have hblank : ∀ c ∈ (Text.prefixedHex bytes).toList, Text.isBlank c = false := by
    rw [hshown]
    exact BlockHash.isBlank_of_mem_append hmark hdigits
  exact (parse_eq_iff (isTrimmed_self hblank)).2
    (.byAlias bytes ⟨Text.encodeHex bytes, hshown, hdigits, hlower.symm⟩)

/-- What a selector says about its account is read as the selector, unless it is an alias without
bytes. -/
theorem parse_account_text (x : AccountSelector) :
    parse x.account.text = .ok x ↔ x ≠ .byAlias [] := by
  cases x with
  | byId id =>
    have htext : (byId id).account.text = id.text := rfl
    rw [htext]
    exact iff_of_true (parse_of_parse_id id.parse_text) (by simp)
  | byAlias bytes =>
    have htext : (byAlias bytes).account.text = Text.prefixedHex bytes := rfl
    rw [htext]
    by_cases hne : bytes = []
    · subst hne
      exact iff_of_false (by decide) (by simp)
    · exact iff_of_true (parse_prefixedHex hne) (by simp [hne])

end AccountSelector

/-! ## The labels of balances -/

/-- Entities are kept under their ids. So is every entity that is ingested (`filed_ingest`). -/
def Store.Filed (s : Store) : Prop :=
  ∀ k row, s.entities.get? k = some row → row.id = k

/-- How balances are labelled: by the id of the entity, if there is one behind the selector. -/
def Store.nameOf (s : Store) : AccountSelector → AccountSelector
  | .byId id => .byId id
  | .byAlias bytes =>
    match s.resolveAlias bytes with
    | .ok (some id) => .byId id
    | _ => .byAlias bytes

/-- A balance is asked for at a time, or at the end of a block. -/
def AccountSelector.balanceQuery (x : AccountSelector) : Int64 ⊕ BlockSelector → Query
  | .inl stop => .balance x stop
  | .inr selector => .balanceAtBlock x selector

def Answer.balance? : Answer → Option AccountBalance
  | balance b => some b
  | balanceAtBlock _ b => some b
  | _ => none

section Balances

variable {s : Store} {x : AccountSelector} {stop : Int64} {g : Option Block}
  {bytes : Bytes} {id : EntityId} {balance : AccountBalance} {settings : Settings}
  {moment : Int64 ⊕ BlockSelector} {answer : Answer}

theorem filed_ingest (h : s.Filed) (record : Ingestion) : (s.ingest record).Filed := by
  cases record with
  | entity row =>
    intro k row' hrow'
    rw [Store.ingest, get?_insertEntity] at hrow'
    split at hrow'
    · next hk =>
      cases hrow'
      exact hk.symm
    · exact h k row' hrow'
  | deleteToken token =>
    rw [Store.ingest, Store.deleteToken_eq]
    exact h
  | _ => exact h

theorem filed_ingestAll (h : s.Filed) (records : List Ingestion) : (s.ingestAll records).Filed := by
  induction records generalizing s with
  | nil => exact h
  | cons record records ih => exact ih (filed_ingest h record)

theorem nameOf_of_resolved (h : s.resolveAlias bytes = .ok (some id)) :
    s.nameOf (.byAlias bytes) = .byId id := by
  simp only [Store.nameOf, h]

theorem nameOf_of_not_resolved (h : ¬∃ id, s.resolveAlias bytes = .ok (some id)) :
    s.nameOf (.byAlias bytes) = .byAlias bytes := by
  unfold Store.nameOf
  dsimp only
  split
  · next id hid => exact absurd ⟨id, hid⟩ h
  · rfl

theorem nameOf_ne_empty (h : x ≠ .byAlias []) : s.nameOf x ≠ .byAlias [] := by
  cases x with
  | byId id => simp [Store.nameOf]
  | byAlias bytes =>
    by_cases hresolved : ∃ id, s.resolveAlias bytes = .ok (some id)
    · obtain ⟨id, hid⟩ := hresolved
      simp [nameOf_of_resolved hid]
    · rwa [nameOf_of_not_resolved hresolved]

theorem eval_account_nameOf (hfiled : s.Filed) (x : AccountSelector) (g : Option Block) :
    (Script.account (s.nameOf x)).eval s g = (Script.account x).eval s g := by
  cases x with
  | byId id => rfl
  | byAlias bytes =>
    by_cases hresolved : ∃ id, s.resolveAlias bytes = .ok (some id)
    · obtain ⟨id, hresolve⟩ := hresolved
      obtain ⟨row, hfound, hdecode⟩ := resolveAlias_eq_ok_some_iff.1 hresolve
      obtain ⟨k, hrow, hbytes⟩ := carries_of_entityOfAlias hfound
      have hid : row.id = id.encode := EntityId.decode_eq_ok_iff.1 hdecode
      rw [← hfiled k row hrow, hid] at hrow
      have hknown : s.entity? id.encode = some row := hrow
      have halias : s.aliasOf? id = some bytes := by
        rw [← hbytes]
        exact congrArg (·.bind Entity.alias?) hrow
      rw [nameOf_of_resolved hresolve]
      simp only [Script.account, Script.bind_eq, Script.eval_bind, Script.eval_find,
        Script.eval_ask, Script.eval_askChecked, hresolve, hknown, halias, Outcome.ofOption_some,
        Outcome.ofExcept_ok]
    · rw [nameOf_of_not_resolved hresolved]

theorem eval_balance_nameOf (hfiled : s.Filed) (x : AccountSelector) (stop : Int64)
    (g : Option Block) :
    (Script.balance (s.nameOf x) stop).eval s g = (Script.balance x stop).eval s g := by
  rw [Script.balance, Script.balance, Script.bind_eq, Script.bind_eq, Script.eval_bind,
    Script.eval_bind, eval_account_nameOf hfiled]

theorem eval_balanceQuery_nameOf (hfiled : s.Filed) (x : AccountSelector)
    (moment : Int64 ⊕ BlockSelector) (settings : Settings) (g : Option Block) :
    (settings.script ((s.nameOf x).balanceQuery moment)).eval s g =
      (settings.script (x.balanceQuery moment)).eval s g := by
  cases moment <;> simp only [AccountSelector.balanceQuery, Settings.script, Script.bind_eq,
    Script.eval_bind, eval_balance_nameOf hfiled]

theorem text_of_account {account : AccountId} {entity? : Option Entity} {g' : Option Block}
    (h : (Script.account x).eval s g = (.ok (account, entity?), g')) :
    account.text = (s.nameOf x).account.text := by
  cases x with
  | byId id =>
    simp only [Script.account, Script.bind_eq, Script.eval_bind_eq, Script.eval_find,
      Script.eval_ask, Script.pure_eq, Script.eval_done, Prod.mk.injEq, Except.ok.injEq] at h
    obtain ⟨row, -, -, alias?, -, -, ⟨rfl, -⟩, -⟩ := h
    rfl
  | byAlias bytes =>
    simp only [Script.account, Script.bind_eq, Script.eval_bind_eq, Script.eval_askChecked,
      Prod.mk.injEq, Outcome.ofExcept_eq_ok] at h
    obtain ⟨id?, g₁, ⟨hresolve, -⟩, h⟩ := h
    cases id? with
    | none =>
      have hunresolved : ¬∃ id, s.resolveAlias bytes = .ok (some id) := by
        rintro ⟨id, hid⟩
        cases hresolve.symm.trans hid
      cases h
      rw [nameOf_of_not_resolved hunresolved]
      rfl
    | some id =>
      simp only [Script.eval_bind_eq, Script.eval_ask, Script.pure_eq, Script.eval_done,
        Prod.mk.injEq, Except.ok.injEq] at h
      obtain ⟨row?, -, -, ⟨rfl, -⟩, -⟩ := h
      rw [nameOf_of_resolved hresolve]
      rfl

theorem account_of_balance (h : ((Script.balance x stop).eval s g).1 = .ok balance) :
    balance.account = (s.nameOf x).account.text := by
  obtain ⟨⟨account, entity?⟩, g₁, haccount, h⟩ := Script.eval_bind_eq_ok.1 h
  rw [← text_of_account haccount]
  dsimp only at h
  cases hid : account.entityId? with
  | none =>
    rw [hid] at h
    cases h
    rfl
  | some id =>
    rw [hid] at h
    obtain ⟨amounts, g₂, -, h⟩ := Script.eval_bind_eq_ok.1 h
    cases h
    rfl

theorem account_of_answer
    (h : ((settings.script (x.balanceQuery moment)).eval s g).1 = .ok answer)
    (hbalance : answer.balance? = some balance) :
    balance.account = (s.nameOf x).account.text := by
  cases moment with
  | inl stop =>
    obtain ⟨b, g₁, hb, h⟩ := Script.eval_bind_eq_ok.1 h
    cases h
    cases hbalance
    exact account_of_balance (congrArg Prod.fst hb)
  | inr selector =>
    obtain ⟨block, g₁, -, h⟩ := Script.eval_bind_eq_ok.1 h
    obtain ⟨b, g₂, hb, h⟩ := Script.eval_bind_eq_ok.1 h
    cases h
    cases hbalance
    exact account_of_balance (congrArg Prod.fst hb)

end Balances

namespace AccountSelector

/-- With the blanks around it taken off, a text names an alias just if it is `0x` and the digits
that spell its bytes, at least one, and an entity just if it does not start with `0x` and is read
as its id. Any other text is refused as an invalid argument. What a selector with an id or with the
bytes of an alias says about its account is read as that selector again. So, in whatever order the
entities come, what a balance is labelled with names a selector, and whatever may be asked of the
account by the one selector is answered in the same way by the other. -/
theorem texts_of_accounts :
    (∀ text : String, ∃ core : String,
      (∀ cs, Text.IsTrimmed text.toList cs ↔ core.toList = cs) ∧
      (∀ bytes, parse text = .ok (.byAlias bytes) ↔ SpellsAlias core bytes) ∧
      (∀ id, parse text = .ok (.byId id) ↔ ¬IsMarked core ∧ EntityId.parse core = .ok id) ∧
      ∀ what, parse text = .error what ↔ Refused text core what) ∧
    (∀ x : AccountSelector, parse x.account.text = .ok x ↔ x ≠ .byAlias []) ∧
    ∀ (order : EntityOrder) (records : List Ingestion) (settings : Settings) (x : AccountSelector)
      (moment : Int64 ⊕ BlockSelector) (answer : Answer) (balance : AccountBalance),
      x ≠ .byAlias [] →
      (Store.ingestAll { order } records).Answers settings (x.balanceQuery moment) answer →
      answer.balance? = some balance →
      ∃ y, parse balance.account = .ok y ∧ ∀ moment answer,
        (Store.ingestAll { order } records).Answers settings (y.balanceQuery moment) answer ↔
          (Store.ingestAll { order } records).Answers settings (x.balanceQuery moment) answer := by
  refine ⟨fun text => ?reads, parse_account_text, ?asks⟩
  case reads =>
    have htrim : (Text.trim text).toList = Text.trimChars text.toList := String.toList_ofList
    have hcore := Text.trimChars_eq_iff.1 htrim.symm
    refine ⟨Text.trim text, fun cs => ?_, fun bytes => parse_eq_alias_iff hcore,
      fun id => parse_eq_id_iff hcore, fun what => parse_eq_error_iff hcore⟩
    rw [htrim, Text.trimChars_eq_iff]
  case asks =>
    intro order records settings x moment answer balance hne hanswer hbalance
    have hfiled : (Store.ingestAll { order } records).Filed :=
      filed_ingestAll (fun k row hrow => by cases hrow) records
    obtain ⟨g, heval⟩ := hanswer.eval
    refine ⟨(Store.ingestAll { order } records).nameOf x, ?_, fun moment answer => ?_⟩
    · rw [account_of_answer heval hbalance]
      exact (parse_account_text _).2 (nameOf_ne_empty hne)
    · simp only [Store.answers_iff, eval_balanceQuery_nameOf hfiled]

/-- An entity with an alias, and what a snapshot says of it. -/
private def labelledRecords : List Ingestion := [
  .entity ⟨1001, some [0xa1], none⟩,
  .hbarBalance 10 (.numbered 1001) 100]

/-- The balance of the alias is labelled with the id of its entity. -/
theorem texts_of_accounts_labelled :
    (Store.ingestAll {} labelledRecords).Answers ⟨.standard, .standard⟩
        (balanceQuery (.byAlias [0xa1]) (.inl 20))
        (.balance ⟨"0.0.1001", some "0xa1", [.hbar 100]⟩) ∧
      ∃ y, parse "0.0.1001" = .ok y ∧ ∀ moment answer,
        (Store.ingestAll {} labelledRecords).Answers ⟨.standard, .standard⟩
            (y.balanceQuery moment) answer ↔
          (Store.ingestAll {} labelledRecords).Answers ⟨.standard, .standard⟩
            (balanceQuery (.byAlias [0xa1]) moment) answer := by
  have hanswer : (Store.ingestAll {} labelledRecords).Answers ⟨.standard, .standard⟩
      (balanceQuery (.byAlias [0xa1]) (.inl 20))
      (.balance ⟨"0.0.1001", some "0xa1", [.hbar 100]⟩) :=
    ⟨{ store := Store.ingestAll {} labelledRecords }, .background, rfl, rfl, by decide +kernel⟩
  exact ⟨hanswer, texts_of_accounts.2.2 .ascending labelledRecords _ _ _ _ _ (by decide) hanswer rfl⟩

end AccountSelector

end LedgerView
