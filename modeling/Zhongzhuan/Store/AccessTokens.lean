import Zhongzhuan.Kit.Schedule
import Zhongzhuan.Kit.Text

/-!
# Access tokens and the families their rotations make

The model of `store/access_tokens.py`: the table of tokens, `check_quota`, and the six statements
that change a row, each of them atomic.  The columns that hold the credential itself are left out;
none of these functions reads them.

A rotation gives a token a successor with the same quota and nothing used, and revokes the token.
It looks neither at what the old token has used nor at whether it was still in force, so a family
of rotations can come to have two tokens in force, or one again, and to use more than its quota.
`tokenFamilies_law` says in which runs it does not.
-/

namespace Zhongzhuan.Store

open Kit

/-! ## The table -/

/-- A row of `access_tokens`. -/
structure AccessToken where
  id : ℤ
  label : String
  enabled : Bool
  quotaTokens : ℤ
  usedTokens : ℤ
  modelWhitelist : String
  expiresAt : ℤ
  createdAt : ℤ
  rotationOf : ℤ
  createdBy : String
  revokedAt : ℤ
  revokedBy : String
deriving DecidableEq, Repr

namespace AccessToken

/-- The names a whitelist allows. -/
def allowed (whitelist : String) : List String :=
  ((whitelist.splitOn ",").map stripText).filter (· ≠ "")

/-- `check_quota`, at a time and for a model. -/
def checkQuota (t : AccessToken) (now : ℚ) (model : String) : Bool × String :=
  if t.enabled = false then (false, "token disabled")
  else if 0 < t.revokedAt then (false, "token revoked")
  else if 0 < t.expiresAt ∧ (t.expiresAt : ℚ) < now then (false, "token expired")
  else if model ≠ "" ∧ t.modelWhitelist ≠ "" ∧ model ∉ allowed t.modelWhitelist then
    (false, "model '" ++ model ++ "' not in whitelist")
  else if 0 ≤ t.quotaTokens ∧ t.quotaTokens ≤ t.usedTokens then (false, "quota exceeded")
  else (true, "")

/-- The token has not been revoked. -/
def Unrevoked (t : AccessToken) : Prop := t.revokedAt ≤ 0

/-- The token passes the first two tests of `check_quota`. -/
def InForce (t : AccessToken) : Prop := t.enabled = true ∧ t.Unrevoked

instance (t : AccessToken) : Decidable t.Unrevoked := inferInstanceAs (Decidable (_ ≤ _))

instance (t : AccessToken) : Decidable t.InForce := inferInstanceAs (Decidable (_ ∧ _))

theorem checkQuota_passes {t : AccessToken} {now : ℚ} {model : String}
    (passes : (t.checkQuota now model).1 = true) :
    t.InForce ∧ (0 ≤ t.quotaTokens → t.usedTokens < t.quotaTokens) := by
  unfold checkQuota at passes
  split_ifs at passes with disabled revoked expired foreign spent
  refine ⟨⟨by simpa using disabled, not_lt.mp revoked⟩, fun limited => ?_⟩
  exact not_le.mp fun exceeded => spent ⟨limited, exceeded⟩

end AccessToken

/-- The table and the number `AUTOINCREMENT` gives next. -/
structure TokenTable where
  rows : List AccessToken
  nextId : ℤ

/-- `UPDATE access_tokens SET … WHERE id=?`. -/
def updateRow (tokenId : ℤ) (set : AccessToken → AccessToken) (rows : List AccessToken) :
    List AccessToken :=
  rows.map fun t => if t.id = tokenId then set t else t

namespace TokenTable

variable (table : TokenTable)

/-- The row of an id. -/
def fetch (tokenId : ℤ) : Option AccessToken := table.rows.find? fun t => t.id = tokenId

/-- `create_token`. -/
def createToken (now : ℤ) (label : String) (quotaTokens : ℤ) (modelWhitelist : String)
    (expiresAt : ℤ) (createdBy : String) (rotationOf : ℤ) : TokenTable where
  rows := table.rows ++
    [{ id := table.nextId, label, enabled := true, quotaTokens, usedTokens := 0, modelWhitelist,
       expiresAt, createdAt := now, rotationOf, createdBy, revokedAt := 0, revokedBy := "" }]
  nextId := table.nextId + 1

/-- `revoke_token`. -/
def revokeToken (tokenId now : ℤ) (revokedBy : String) : TokenTable :=
  { table with
    rows := updateRow tokenId
      (fun t => { t with enabled := false, revokedAt := now, revokedBy }) table.rows }

/-- `rotate_token`: both writes in one transaction. -/
def rotateToken (tokenId now : ℤ) (rotatedBy : String) : TokenTable :=
  match table.fetch tokenId with
  | none => table
  | some row =>
    (table.createToken now row.label row.quotaTokens row.modelWhitelist row.expiresAt rotatedBy
      tokenId).revokeToken tokenId now rotatedBy

/-- `update_token`; a field that is not given stays. -/
def updateToken (tokenId : ℤ) (label : Option String) (enabled : Option Bool)
    (quotaTokens : Option ℤ) (modelWhitelist : Option String) (expiresAt : Option ℤ) :
    TokenTable :=
  { table with
    rows := updateRow tokenId
      (fun t =>
        { t with
          label := label.getD t.label
          enabled := enabled.getD t.enabled
          quotaTokens := quotaTokens.getD t.quotaTokens
          modelWhitelist := modelWhitelist.getD t.modelWhitelist
          expiresAt := expiresAt.getD t.expiresAt }) table.rows }

/-- `delete_token`. -/
def deleteToken (tokenId : ℤ) : TokenTable :=
  { table with rows := table.rows.filter fun t => t.id ≠ tokenId }

/-- `deduct_token_quota`. -/
def deductTokenQuota (tokenId tokens : ℤ) : TokenTable :=
  if tokens ≤ 0 ∨ tokenId ≤ 0 then table
  else
    { table with
      rows := updateRow tokenId (fun t => { t with usedTokens := t.usedTokens + tokens })
        table.rows }

end TokenTable

/-- One of the operations; the clock reads a time after 1970. -/
inductive TokenOp
  | create (now : ℕ+) (label : String) (quotaTokens : ℤ) (modelWhitelist : String)
      (expiresAt : ℤ) (createdBy : String)
  | rotate (tokenId : ℤ) (now : ℕ+) (rotatedBy : String)
  | revoke (tokenId : ℤ) (now : ℕ+) (revokedBy : String)
  | update (tokenId : ℤ) (label : Option String) (enabled : Option Bool) (quotaTokens : Option ℤ)
      (modelWhitelist : Option String) (expiresAt : Option ℤ)
  | delete (tokenId : ℤ)
  | deduct (tokenId tokens : ℤ)

/-- What an operation does to the table. -/
def TokenTable.apply (table : TokenTable) : TokenOp → TokenTable
  | .create now label quota whitelist expiresAt createdBy =>
    table.createToken now label quota whitelist expiresAt createdBy 0
  | .rotate tokenId now rotatedBy => table.rotateToken tokenId now rotatedBy
  | .revoke tokenId now revokedBy => table.revokeToken tokenId now revokedBy
  | .update tokenId label enabled quota whitelist expiresAt =>
    table.updateToken tokenId label enabled quota whitelist expiresAt
  | .delete tokenId => table.deleteToken tokenId
  | .deduct tokenId tokens => table.deductTokenQuota tokenId tokens

/-! ## Families -/

/-- The table, and for every id that was ever given out the original token its rotations lead
back to and the quota the token was created with.  Neither is a column: a token may outlive the
row it was rotated from. -/
structure TokenRun where
  table : TokenTable
  origin : ℤ → ℤ
  granted : ℤ → ℤ

namespace TokenRun

/-- Before any token is created. -/
def empty : TokenRun := ⟨⟨[], 1⟩, id, fun _ => 0⟩

/-- The original token that the next id leads back to. -/
def originNext (s : TokenRun) : TokenOp → ℤ
  | .rotate tokenId _ _ => s.origin tokenId
  | _ => s.table.nextId

/-- The quota the next id is created with. -/
def grantedNext (s : TokenRun) : TokenOp → ℤ
  | .create _ _ quota _ _ _ => quota
  | .rotate tokenId _ _ => ((s.table.fetch tokenId).map AccessToken.quotaTokens).getD 0
  | _ => 0

/-- One operation. -/
def step (s : TokenRun) (op : TokenOp) : TokenRun where
  table := s.table.apply op
  origin := Function.update s.origin s.table.nextId (s.originNext op)
  granted := Function.update s.granted s.table.nextId (s.grantedNext op)

/-- The tokens of the family of an original token. -/
def family (s : TokenRun) (o : ℤ) : List AccessToken :=
  s.table.rows.filter fun t => s.origin t.id = o

end TokenRun

/-! ## What an operation makes of a row, and which row it adds -/

namespace TokenOp

/-- What an operation makes of a row that is there. -/
def becomes : TokenOp → AccessToken → Option AccessToken
  | .create .., t => some t
  | .rotate tokenId now by_, t | .revoke tokenId now by_, t =>
    some (if t.id = tokenId then { t with enabled := false, revokedAt := now, revokedBy := by_ }
      else t)
  | .update tokenId label enabled quota whitelist expiresAt, t =>
    some (if t.id = tokenId then
        { t with
          label := label.getD t.label
          enabled := enabled.getD t.enabled
          quotaTokens := quota.getD t.quotaTokens
          modelWhitelist := whitelist.getD t.modelWhitelist
          expiresAt := expiresAt.getD t.expiresAt }
      else t)
  | .delete tokenId, t => if t.id = tokenId then none else some t
  | .deduct tokenId tokens, t =>
    some (if tokens ≤ 0 ∨ tokenId ≤ 0 then t
      else if t.id = tokenId then { t with usedTokens := t.usedTokens + tokens } else t)

variable {op : TokenOp} {t t' : AccessToken}

theorem becomes_kept (after : op.becomes t = some t') :
    t'.id = t.id ∧ t'.rotationOf = t.rotationOf ∧ (t'.Unrevoked → t.Unrevoked) := by
  cases op with
  | create => cases after; exact ⟨rfl, rfl, id⟩
  | rotate tokenId now _ | revoke tokenId now _ =>
    obtain rfl := Option.some.inj after
    split
    · exact ⟨rfl, rfl, fun unrevoked => absurd unrevoked (not_le.mpr (by simp))⟩
    · exact ⟨rfl, rfl, id⟩
  | update =>
    obtain rfl := Option.some.inj after
    split <;> exact ⟨rfl, rfl, id⟩
  | delete =>
    rw [becomes] at after
    split at after
    · cases after
    · cases after; exact ⟨rfl, rfl, id⟩
  | deduct =>
    obtain rfl := Option.some.inj after
    split_ifs <;> exact ⟨rfl, rfl, id⟩

theorem becomes_rotate {tokenId : ℤ} {now : ℕ+} {by_ : String}
    (after : (rotate tokenId now by_).becomes t = some t') :
    t.id = tokenId ∧ ¬ t'.Unrevoked ∨ t.id ≠ tokenId ∧ t' = t := by
  obtain rfl := Option.some.inj after
  split
  case isTrue hit => exact .inl ⟨hit, not_le.mpr (by simp)⟩
  case isFalse other => exact .inr ⟨other, rfl⟩

theorem becomes_revoked (after : op.becomes t = some t') (before : t.Unrevoked)
    (revoked : ¬ t'.Unrevoked) :
    t'.usedTokens = t.usedTokens ∧ ((∃ now by_, op = .rotate t.id now by_)
      ∨ ∃ now by_, op = .revoke t.id now by_) := by
  cases op with
  | create => cases after; exact absurd before revoked
  | rotate tokenId now by_ =>
    obtain rfl := Option.some.inj after
    split at revoked
    case isTrue hit =>
      rw [if_pos hit]
      exact ⟨rfl, .inl ⟨now, by_, by rw [hit]⟩⟩
    case isFalse => exact absurd before revoked
  | revoke tokenId now by_ =>
    obtain rfl := Option.some.inj after
    split at revoked
    case isTrue hit =>
      rw [if_pos hit]
      exact ⟨rfl, .inr ⟨now, by_, by rw [hit]⟩⟩
    case isFalse => exact absurd before revoked
  | update =>
    obtain rfl := Option.some.inj after
    split at revoked <;> exact absurd before revoked
  | delete =>
    rw [becomes] at after
    split at after
    · cases after
    · cases after; exact absurd before revoked
  | deduct =>
    obtain rfl := Option.some.inj after
    split_ifs at revoked <;> exact absurd before revoked

theorem becomes_used (after : op.becomes t = some t') :
    t'.usedTokens = t.usedTokens ∨ ∃ tokens, op = .deduct t.id tokens ∧ 0 < tokens := by
  cases op with
  | create => cases after; exact .inl rfl
  | rotate | revoke | update =>
    obtain rfl := Option.some.inj after
    split <;> exact .inl rfl
  | delete =>
    rw [becomes] at after
    split at after
    · cases after
    · cases after; exact .inl rfl
  | deduct tokenId tokens =>
    obtain rfl := Option.some.inj after
    split_ifs with nothing hit
    · exact .inl rfl
    · exact .inr ⟨tokens, by rw [hit], by omega⟩
    · exact .inl rfl

theorem becomes_quota (after : op.becomes t = some t') :
    t'.quotaTokens = t.quotaTokens
      ∨ ∃ label enabled quota whitelist expiresAt,
        op = .update t.id label enabled (some quota) whitelist expiresAt
          ∧ t'.quotaTokens = quota := by
  cases op with
  | create => cases after; exact .inl rfl
  | rotate | revoke | deduct =>
    obtain rfl := Option.some.inj after
    split_ifs <;> exact .inl rfl
  | update tokenId label enabled quota whitelist expiresAt =>
    obtain rfl := Option.some.inj after
    split_ifs with hit
    · cases quota with
      | none => exact .inl rfl
      | some quota => exact .inr ⟨label, enabled, quota, whitelist, expiresAt, by rw [hit], rfl⟩
    · exact .inl rfl
  | delete =>
    rw [becomes] at after
    split at after
    · cases after
    · cases after; exact .inl rfl

end TokenOp

namespace TokenTable

variable (table : TokenTable)

/-- The row an operation adds, if any. -/
def issued : TokenOp → List AccessToken
  | .create now label quota whitelist expiresAt createdBy =>
    ((TokenTable.mk [] table.nextId).createToken now label quota whitelist expiresAt createdBy
      0).rows
  | .rotate tokenId now rotatedBy =>
    (table.fetch tokenId).elim [] fun row =>
      ((TokenTable.mk [] table.nextId).createToken now row.label row.quotaTokens
        row.modelWhitelist row.expiresAt rotatedBy tokenId).rows
  | _ => []

variable {table} {op : TokenOp} {t : AccessToken} {tokenId : ℤ}

theorem fetch_eq_some (found : table.fetch tokenId = some t) :
    t ∈ table.rows ∧ t.id = tokenId :=
  ⟨List.mem_of_find?_eq_some found, by simpa using List.find?_some found⟩

theorem fetch_eq_none : table.fetch tokenId = none ↔ ∀ t ∈ table.rows, t.id ≠ tokenId := by
  simp [fetch]

/-- Ids are numbered from below the next one. -/
def Below (table : TokenTable) : Prop := ∀ t ∈ table.rows, t.id < table.nextId

theorem updateRow_eq_filterMap {set : AccessToken → AccessToken} {rows : List AccessToken} :
    updateRow tokenId set rows
      = rows.filterMap fun t => some (if t.id = tokenId then set t else t) := by
  rw [updateRow, List.filterMap_eq_map']

/-- **The rows after an operation: what it makes of those that were there, and the one it adds.** -/
theorem apply_rows (below : table.Below) :
    (table.apply op).rows = table.rows.filterMap op.becomes ++ table.issued op := by
  cases op with
  | create =>
    have same : table.rows.filterMap some = table.rows := List.filterMap_some
    exact congrArg (· ++ _) same.symm
  | rotate tokenId now by_ =>
    rw [apply, rotateToken, issued]
    cases found : table.fetch tokenId with
    | none =>
      have others := fetch_eq_none.mp found
      have same : table.rows.filterMap (TokenOp.rotate tokenId now by_).becomes
          = table.rows.filterMap some :=
        List.filterMap_congr fun t mem => by rw [TokenOp.becomes, if_neg (others t mem)]
      rw [same, List.filterMap_some]
      exact (List.append_nil _).symm
    | some row =>
      obtain ⟨mem, rfl⟩ := fetch_eq_some found
      have fresh : table.nextId ≠ row.id := (below row mem).ne'
      simp only [revokeToken, createToken, updateRow_eq_filterMap, List.filterMap_append]
      rw [List.filterMap_cons_some (by rw [if_neg fresh])]
      rfl
  | revoke => exact updateRow_eq_filterMap.trans (List.append_nil _).symm
  | update => exact updateRow_eq_filterMap.trans (List.append_nil _).symm
  | delete tokenId =>
    refine Eq.trans ?_ (List.append_nil _).symm
    rw [apply, deleteToken, ← List.filterMap_eq_filter]
    refine List.filterMap_congr fun t _ => ?_
    by_cases hit : t.id = tokenId
    · rw [TokenOp.becomes, if_pos hit]
      simp [Option.guard, hit]
    · rw [TokenOp.becomes, if_neg hit]
      simp [Option.guard, hit]
  | deduct tokenId tokens =>
    refine Eq.trans ?_ (List.append_nil _).symm
    rw [apply, deductTokenQuota]
    split
    case isTrue nothing =>
      have same : table.rows.filterMap (TokenOp.deduct tokenId tokens).becomes
          = table.rows.filterMap some :=
        List.filterMap_congr fun t _ => by rw [TokenOp.becomes, if_pos nothing]
      rw [same, List.filterMap_some]
    case isFalse something =>
      refine updateRow_eq_filterMap.trans (List.filterMap_congr fun t _ => ?_)
      rw [TokenOp.becomes, if_neg something]

theorem issued_fresh (added : t ∈ table.issued op) :
    t.id = table.nextId ∧ t.InForce ∧ t.usedTokens = 0
      ∧ (table.apply op).nextId = table.nextId + 1 := by
  cases op with
  | create =>
    obtain rfl := List.mem_singleton.mp added
    exact ⟨rfl, ⟨rfl, le_rfl⟩, rfl, rfl⟩
  | rotate tokenId =>
    rw [issued] at added
    cases found : table.fetch tokenId with
    | none => rw [found] at added; cases added
    | some row =>
      rw [found] at added
      obtain rfl := List.mem_singleton.mp added
      refine ⟨rfl, ⟨rfl, le_rfl⟩, rfl, ?_⟩
      rw [apply, rotateToken, found]
      rfl
  | revoke | update | delete | deduct => cases added

theorem nextId_le : table.nextId ≤ (table.apply op).nextId := by
  cases op with
  | create => exact Int.le_add_one le_rfl
  | rotate tokenId =>
    rw [apply, rotateToken]
    split
    · exact le_rfl
    · exact Int.le_add_one le_rfl
  | revoke | update | delete => exact le_rfl
  | deduct => rw [apply, deductTokenQuota]; split <;> exact le_rfl

end TokenTable

/-! ## Runs -/

namespace TokenRun

variable {s : TokenRun} {op : TokenOp} {t t' : AccessToken} {o : ℤ}

/-- What holds of every run: ids and originals are numbered from below the next id, no two rows
share an id, and the chain of rotations of every token leads to its original. -/
structure Numbered (s : TokenRun) : Prop where
  below : s.table.Below
  positive : 0 < s.table.nextId ∧ ∀ t ∈ s.table.rows, 0 < t.id
  distinct : s.table.rows.Pairwise fun t t' => t.id ≠ t'.id
  origins : ∀ t ∈ s.table.rows, s.origin t.id < s.table.nextId
  original : ∀ t ∈ s.table.rows, t.rotationOf = 0 → s.origin t.id = t.id
  rotated : ∀ t ∈ s.table.rows, t.rotationOf ≠ 0 →
    t.rotationOf < s.table.nextId ∧ s.origin t.id = s.origin t.rotationOf

theorem origin_step (old : o < s.table.nextId) : (s.step op).origin o = s.origin o :=
  Function.update_of_ne old.ne _ _

theorem granted_step (old : o < s.table.nextId) : (s.step op).granted o = s.granted o :=
  Function.update_of_ne old.ne _ _

theorem origin_next : (s.step op).origin s.table.nextId = s.originNext op :=
  Function.update_self ..

theorem granted_next : (s.step op).granted s.table.nextId = s.grantedNext op :=
  Function.update_self ..

theorem mem_step (numbered : s.Numbered) :
    t' ∈ (s.step op).table.rows
      ↔ (∃ t ∈ s.table.rows, op.becomes t = some t') ∨ t' ∈ s.table.issued op := by
  change t' ∈ (s.table.apply op).rows ↔ _
  rw [TokenTable.apply_rows numbered.below, List.mem_append, List.mem_filterMap]

theorem originNext_of_issued (numbered : s.Numbered) (added : t ∈ s.table.issued op) :
    (t.rotationOf = 0 → s.originNext op = s.table.nextId)
      ∧ (t.rotationOf ≠ 0 → t.rotationOf < s.table.nextId
        ∧ s.originNext op = s.origin t.rotationOf ∧ s.originNext op < s.table.nextId) := by
  cases op with
  | create =>
    obtain rfl := List.mem_singleton.mp added
    exact ⟨fun _ => rfl, fun rotated => absurd rfl rotated⟩
  | rotate tokenId =>
    rw [TokenTable.issued] at added
    cases found : s.table.fetch tokenId with
    | none => rw [found] at added; cases added
    | some row =>
      rw [found] at added
      obtain rfl := List.mem_singleton.mp added
      obtain ⟨mem, rfl⟩ := TokenTable.fetch_eq_some found
      exact ⟨fun root => absurd root (numbered.positive.2 row mem).ne',
        fun _ => ⟨numbered.below row mem, rfl, numbered.origins row mem⟩⟩
  | revoke | update | delete | deduct => cases added

theorem Numbered.empty : empty.Numbered where
  below := by simp [TokenRun.empty, TokenTable.Below]
  positive := by simp [TokenRun.empty]
  distinct := List.Pairwise.nil
  origins := by simp [TokenRun.empty]
  original := by simp [TokenRun.empty]
  rotated := by simp [TokenRun.empty]

theorem Numbered.step (numbered : s.Numbered) (op : TokenOp) : (s.step op).Numbered := by
  have grows : s.table.nextId ≤ (s.step op).table.nextId := TokenTable.nextId_le
  have stays : ∀ {t t'}, t ∈ s.table.rows → op.becomes t = some t' →
      t'.id = t.id ∧ t'.rotationOf = t.rotationOf ∧ t'.id < s.table.nextId
        ∧ (s.step op).origin t'.id = s.origin t.id := by
    intro t t' mem after
    obtain ⟨id, rotation, -⟩ := TokenOp.becomes_kept after
    have old := numbered.below t mem
    refine ⟨id, rotation, id ▸ old, ?_⟩
    rw [id]
    exact origin_step old
  have comes : ∀ {t'}, t' ∈ s.table.issued op →
      t'.id = s.table.nextId ∧ s.table.nextId < (s.step op).table.nextId
        ∧ (s.step op).origin t'.id = s.originNext op := by
    intro t' added
    obtain ⟨id, -, -, next⟩ := TokenTable.issued_fresh added
    exact ⟨id, next ▸ Int.lt_succ _, id ▸ origin_next⟩
  constructor
  case below =>
    intro t' mem'
    rcases (mem_step numbered).mp mem' with ⟨t, mem, after⟩ | added
    · exact lt_of_lt_of_le (stays mem after).2.2.1 grows
    · rw [(comes added).1]
      exact (comes added).2.1
  case positive =>
    refine ⟨lt_of_lt_of_le numbered.positive.1 grows, fun t' mem' => ?_⟩
    rcases (mem_step numbered).mp mem' with ⟨t, mem, after⟩ | added
    · rw [(stays mem after).1]
      exact numbered.positive.2 t mem
    · rw [(comes added).1]
      exact numbered.positive.1
  case distinct =>
    change ((s.table.apply op).rows).Pairwise _
    rw [TokenTable.apply_rows numbered.below, List.pairwise_append]
    refine ⟨?_, ?_, ?_⟩
    · refine List.Pairwise.filterMap op.becomes ?_ numbered.distinct
      intro t t₁ apart t' after t₁' after₁
      rw [(TokenOp.becomes_kept after).1, (TokenOp.becomes_kept after₁).1]
      exact apart
    · cases op with
      | create => exact List.pairwise_singleton _ _
      | rotate tokenId =>
        rw [TokenTable.issued]
        cases s.table.fetch tokenId with
        | none => exact List.Pairwise.nil
        | some row => exact List.pairwise_singleton _ _
      | revoke | update | delete | deduct => exact List.Pairwise.nil
    · intro t' mem' t₁ added
      obtain ⟨t, mem, after⟩ := List.mem_filterMap.mp mem'
      rw [(comes added).1]
      exact (stays mem after).2.2.1.ne
  case origins =>
    intro t' mem'
    rcases (mem_step numbered).mp mem' with ⟨t, mem, after⟩ | added
    · rw [(stays mem after).2.2.2]
      exact lt_of_lt_of_le (numbered.origins t mem) grows
    · obtain ⟨-, next, origin⟩ := comes added
      obtain ⟨root, rotated⟩ := originNext_of_issued numbered added
      rw [origin]
      by_cases rotation : t'.rotationOf = 0
      · rw [root rotation]
        exact next
      · exact (rotated rotation).2.2.trans next
  case original =>
    intro t' mem' root
    rcases (mem_step numbered).mp mem' with ⟨t, mem, after⟩ | added
    · obtain ⟨id, rotation, -, origin⟩ := stays mem after
      rw [origin, id]
      exact numbered.original t mem (rotation ▸ root)
    · rw [(comes added).2.2, (comes added).1]
      exact (originNext_of_issued numbered added).1 root
  case rotated =>
    intro t' mem' rotated
    rcases (mem_step numbered).mp mem' with ⟨t, mem, after⟩ | added
    · obtain ⟨-, rotation, -, origin⟩ := stays mem after
      obtain ⟨old, same⟩ := numbered.rotated t mem (rotation ▸ rotated)
      rw [origin, rotation, origin_step old]
      exact ⟨lt_of_lt_of_le old grows, same⟩
    · obtain ⟨old, same, -⟩ := (originNext_of_issued numbered added).2 rotated
      rw [(comes added).2.2, origin_step old]
      exact ⟨lt_of_lt_of_le old grows, same⟩

theorem Numbered.eq_of_id (numbered : s.Numbered) (mem : t ∈ s.table.rows)
    (mem' : t' ∈ s.table.rows) (same : t.id = t'.id) : t = t' := by
  exact List.inj_on_of_nodup_map (List.pairwise_map.mpr numbered.distinct) mem mem' same

/-! ## The laws -/

/-- At most one token of each family is in force. -/
def OneInForce (s : TokenRun) : Prop :=
  ∀ o, ∀ t ∈ s.family o, ∀ t' ∈ s.family o, t.InForce → t'.InForce → t = t'

/-- A rotation gives no family a token in force that has none. -/
def NotRevived (s : TokenRun) (op : TokenOp) : Prop :=
  ∀ tokenId now by_, op = .rotate tokenId now by_ → ∀ o, (∀ t ∈ s.family o, ¬ t.InForce) →
    ∀ t ∈ (s.step op).family o, ¬ t.InForce

/-- While some token of a family with a quota passes `check_quota`, the family has used less. -/
def WithinQuota (o : ℤ) (s : TokenRun) : Prop :=
  0 ≤ s.granted o → (∃ t ∈ s.family o, ∃ now model, (t.checkQuota now model).1 = true) →
    ((s.family o).map AccessToken.usedTokens).sum < s.granted o

/-- An update gives no token of the family another quota. -/
def KeepsQuota (o : ℤ) (s : TokenRun) (op : TokenOp) : Prop :=
  ∀ tokenId label enabled quota whitelist expiresAt,
    op = .update tokenId label enabled (some quota) whitelist expiresAt →
      ∀ t ∈ s.family o, t.id = tokenId → quota = t.quotaTokens

/-- Only tokens in force are rotated. -/
def RotatesInForce (s : TokenRun) (op : TokenOp) : Prop :=
  ∀ tokenId now by_, op = .rotate tokenId now by_ →
    ∀ t ∈ s.table.rows, t.id = tokenId → t.InForce

/-- In the family of a token with a quota, what is rotated has used nothing, and nothing is
charged to a token that has been revoked. -/
def ChargedOnce (s : TokenRun) (op : TokenOp) : Prop :=
  ∀ t ∈ s.table.rows, 0 ≤ s.granted (s.origin t.id) →
    (∀ now by_, op = .rotate t.id now by_ → t.usedTokens = 0)
      ∧ ∀ tokens, op = .deduct t.id tokens → 0 < tokens → t.Unrevoked

/-- At most one token of each family has not been revoked. -/
def OneUnrevoked (s : TokenRun) : Prop :=
  ∀ o, ∀ t ∈ s.family o, ∀ t' ∈ s.family o, t.Unrevoked → t'.Unrevoked → t = t'

/-- What has been used in a family with a quota has been used by the token that is not revoked. -/
structure Charged (o : ℤ) (s : TokenRun) : Prop where
  quota : ∀ t ∈ s.family o, t.quotaTokens = s.granted o
  spent : (∃ t ∈ s.family o, t.Unrevoked) → ∀ t ∈ s.family o, ¬ t.Unrevoked → t.usedTokens = 0

theorem mem_family : t ∈ s.family o ↔ t ∈ s.table.rows ∧ s.origin t.id = o := by
  simp [family]

theorem mem_family_step (numbered : s.Numbered) :
    t' ∈ (s.step op).family o
      ↔ (∃ t ∈ s.family o, op.becomes t = some t')
        ∨ t' ∈ s.table.issued op ∧ s.originNext op = o := by
  have carried : ∀ {t}, t ∈ s.table.rows → op.becomes t = some t' →
      (s.step op).origin t'.id = s.origin t.id := by
    intro t mem after
    rw [(TokenOp.becomes_kept after).1]
    exact origin_step (numbered.below t mem)
  have added : t' ∈ s.table.issued op → (s.step op).origin t'.id = s.originNext op := by
    intro mem
    rw [(TokenTable.issued_fresh mem).1]
    exact origin_next
  rw [mem_family, mem_step numbered]
  constructor
  · rintro ⟨⟨t, mem, after⟩ | mem, origin⟩
    · exact .inl ⟨t, mem_family.mpr ⟨mem, (carried mem after).symm.trans origin⟩, after⟩
    · exact .inr ⟨mem, (added mem).symm.trans origin⟩
  · rintro (⟨t, mem, after⟩ | ⟨mem, origin⟩)
    · obtain ⟨mem, origin⟩ := mem_family.mp mem
      exact ⟨.inl ⟨t, mem, after⟩, (carried mem after).trans origin⟩
    · exact ⟨.inr mem, (added mem).trans origin⟩

theorem Numbered.old_of_mem (numbered : s.Numbered) (mem : t ∈ s.family o) :
    o < s.table.nextId := by
  obtain ⟨inside, rfl⟩ := mem_family.mp mem
  exact numbered.origins t inside

theorem row_of_issued {tokenId : ℤ} {now : ℕ+} {by_ : String}
    (added : t' ∈ s.table.issued (.rotate tokenId now by_)) :
    ∃ row ∈ s.table.rows, row.id = tokenId ∧ t'.quotaTokens = row.quotaTokens := by
  rw [TokenTable.issued] at added
  cases found : s.table.fetch tokenId with
  | none => rw [found] at added; cases added
  | some row =>
    rw [found] at added
    obtain rfl := List.mem_singleton.mp added
    obtain ⟨mem, rfl⟩ := TokenTable.fetch_eq_some found
    exact ⟨row, mem, rfl, rfl⟩

theorem rotates_of_issued (old : o < s.table.nextId) (added : t' ∈ s.table.issued op)
    (joins : s.originNext op = o) :
    ∃ row now by_, row ∈ s.family o ∧ op = .rotate row.id now by_
      ∧ t'.quotaTokens = row.quotaTokens := by
  cases op with
  | create => exact absurd joins old.ne'
  | rotate tokenId now by_ =>
    obtain ⟨row, mem, rfl, quota⟩ := row_of_issued added
    exact ⟨row, now, by_, mem_family.mpr ⟨mem, joins⟩, rfl, quota⟩
  | revoke | update | delete | deduct => cases added

theorem issued_of_rotates (mem : t ∈ s.table.rows) (now : ℕ+) (by_ : String) :
    ∃ t', t' ∈ s.table.issued (.rotate t.id now by_) := by
  rw [TokenTable.issued]
  cases found : s.table.fetch t.id with
  | none => exact absurd rfl (TokenTable.fetch_eq_none.mp found t mem)
  | some row => exact ⟨_, List.mem_singleton_self _⟩

theorem issued_unique (added : t ∈ s.table.issued op) (added' : t' ∈ s.table.issued op) :
    t = t' := by
  cases op with
  | create => exact (List.mem_singleton.mp added).trans (List.mem_singleton.mp added').symm
  | rotate tokenId =>
    rw [TokenTable.issued] at added added'
    cases found : s.table.fetch tokenId with
    | none => rw [found] at added; cases added
    | some row =>
      rw [found] at added added'
      exact (List.mem_singleton.mp added).trans (List.mem_singleton.mp added').symm
  | revoke | update | delete | deduct => cases added

/-! ## One token in force -/

theorem OneUnrevoked.oneInForce (unrevoked : s.OneUnrevoked) : s.OneInForce :=
  fun o t mem t' mem' inForce inForce' => unrevoked o t mem t' mem' inForce.2 inForce'.2

theorem OneUnrevoked.revoked_of_issued (unrevoked : s.OneUnrevoked) (numbered : s.Numbered)
    (rotates : RotatesInForce s op) (mem : t ∈ s.family o) {t₁ : AccessToken}
    (after : op.becomes t = some t₁) (added : t' ∈ s.table.issued op)
    (joins : s.originNext op = o) : ¬ t₁.Unrevoked := by
  intro live
  obtain ⟨row, now, by_, inside, rfl, -⟩ :=
    rotates_of_issued (numbered.old_of_mem mem) added joins
  have inForce := rotates row.id now by_ rfl row (mem_family.mp inside).1 rfl
  obtain rfl := unrevoked o t mem row inside ((TokenOp.becomes_kept after).2.2 live) inForce.2
  rcases TokenOp.becomes_rotate after with ⟨-, revoked⟩ | ⟨other, -⟩
  · exact revoked live
  · exact other rfl

theorem OneUnrevoked.step (unrevoked : s.OneUnrevoked) (numbered : s.Numbered)
    (rotates : RotatesInForce s op) : (s.step op).OneUnrevoked := by
  intro o t mem t' mem' live live'
  rcases (mem_family_step numbered).mp mem with ⟨t₀, mem₀, after⟩ | ⟨added, joins⟩
  all_goals rcases (mem_family_step numbered).mp mem' with ⟨t₀', mem₀', after'⟩ | ⟨added', joins'⟩
  · have before := (TokenOp.becomes_kept after).2.2 live
    have before' := (TokenOp.becomes_kept after').2.2 live'
    obtain rfl := unrevoked o t₀ mem₀ t₀' mem₀' before before'
    exact Option.some.inj (after.symm.trans after')
  · exact absurd live (unrevoked.revoked_of_issued numbered rotates mem₀ after added' joins')
  · exact absurd live' (unrevoked.revoked_of_issued numbered rotates mem₀' after' added joins)
  · exact issued_unique added added'

theorem oneInForce_step_iff (unrevoked : s.OneUnrevoked) (numbered : s.Numbered) :
    (s.step op).OneInForce ∧ NotRevived s op ↔ RotatesInForce s op := by
  constructor
  · rintro ⟨one, notRevived⟩ tokenId now by_ rfl t mem rfl
    by_contra notInForce
    have inside : t ∈ s.family (s.origin t.id) := mem_family.mpr ⟨mem, rfl⟩
    obtain ⟨fresh, added⟩ := issued_of_rotates mem now by_
    have joined : fresh ∈ (s.step (.rotate t.id now by_)).family (s.origin t.id) :=
      (mem_family_step numbered).mpr (.inr ⟨added, rfl⟩)
    obtain ⟨new, live, -⟩ := TokenTable.issued_fresh added
    -- the family had another token in force, which stays
    have other : ∃ t' ∈ s.family (s.origin t.id), t'.InForce := by
      by_contra none
      push Not at none
      exact notRevived t.id now by_ rfl _ none fresh joined live
    obtain ⟨t', mem', live'⟩ := other
    have apart : t'.id ≠ t.id := by
      intro same
      obtain rfl := numbered.eq_of_id (mem_family.mp mem').1 mem same
      exact notInForce live'
    have stays : (TokenOp.rotate t.id now by_).becomes t' = some t' :=
      congrArg some (if_neg apart)
    have kept : t' ∈ (s.step (.rotate t.id now by_)).family (s.origin t.id) :=
      (mem_family_step numbered).mpr (.inl ⟨t', mem', stays⟩)
    have same := one _ fresh joined t' kept live live'
    have old := numbered.below t' (mem_family.mp mem').1
    rw [← same, new] at old
    exact lt_irrefl _ old
  · intro rotates
    refine ⟨(unrevoked.step numbered rotates).oneInForce, ?_⟩
    rintro tokenId now by_ rfl o none t mem live
    rcases (mem_family_step numbered).mp mem with ⟨t₀, mem₀, after⟩ | ⟨added, joins⟩
    · rcases TokenOp.becomes_rotate after with ⟨-, revoked⟩ | ⟨-, rfl⟩
      · exact revoked live.2
      · exact none t mem₀ live
    · obtain ⟨row, inside, rfl, -⟩ := row_of_issued added
      exact none row (mem_family.mpr ⟨inside, joins⟩) (rotates row.id now by_ rfl row inside rfl)

/-! ## What a family has used -/

theorem Charged.quota_step (charged : s.Charged o) (numbered : s.Numbered)
    (keeps : KeepsQuota o s op) (mem : t' ∈ (s.step op).family o) :
    t'.quotaTokens = (s.step op).granted o := by
  rcases (mem_family_step numbered).mp mem with ⟨t, inside, after⟩ | ⟨added, joins⟩
  · rw [granted_step (numbered.old_of_mem inside), ← charged.quota t inside]
    rcases TokenOp.becomes_quota after with
      same | ⟨label, enabled, quota, whitelist, expiresAt, update, new⟩
    · exact same
    · exact new.trans (keeps t.id label enabled quota whitelist expiresAt update t inside rfl)
  · cases op with
    | create now label quota whitelist expiresAt createdBy =>
      obtain rfl := List.mem_singleton.mp added
      obtain rfl := joins
      change quota
        = (s.step (.create now label quota whitelist expiresAt createdBy)).granted s.table.nextId
      rw [granted_next]
      rfl
    | rotate =>
      obtain ⟨row, inside, rfl, quota⟩ := row_of_issued added
      have member := mem_family.mpr ⟨inside, joins⟩
      rw [granted_step (numbered.old_of_mem member), quota]
      exact charged.quota row member
    | revoke | update | delete | deduct => cases added

theorem Charged.step (charged : s.Charged o) (numbered : s.Numbered)
    (unrevoked : s.OneUnrevoked) (limited : 0 ≤ (s.step op).granted o)
    (rotates : RotatesInForce s op) (once : ChargedOnce s op) (keeps : KeepsQuota o s op) :
    (s.step op).Charged o := by
  refine ⟨fun t' mem => charged.quota_step numbered keeps mem, ?_⟩
  rintro ⟨u', memu, live⟩ t' mem revoked
  rcases (mem_family_step numbered).mp mem with ⟨t, inside, after⟩ | ⟨added, -⟩
  swap
  · exact absurd (TokenTable.issued_fresh added).2.1.2 revoked
  rw [granted_step (numbered.old_of_mem inside)] at limited
  have charges := once t (mem_family.mp inside).1 (by rwa [(mem_family.mp inside).2])
  by_cases before : t.Unrevoked
  · obtain ⟨same, ⟨now, by_, rotate⟩ | ⟨now, by_, revoke⟩⟩ :=
      TokenOp.becomes_revoked after before revoked
    · exact same.trans (charges.1 now by_ rotate)
    · -- a revocation leaves no other token of the family
      subst revoke
      rcases (mem_family_step numbered).mp memu with ⟨u, insideu, afteru⟩ | ⟨added, -⟩
      · have beforeu := (TokenOp.becomes_kept afteru).2.2 live
        obtain rfl := unrevoked o t inside u insideu before beforeu
        obtain rfl := Option.some.inj (after.symm.trans afteru)
        exact absurd live revoked
      · cases added
  · have other : ∃ u ∈ s.family o, u.Unrevoked := by
      rcases (mem_family_step numbered).mp memu with ⟨u, insideu, afteru⟩ | ⟨added, joins⟩
      · exact ⟨u, insideu, (TokenOp.becomes_kept afteru).2.2 live⟩
      · obtain ⟨row, now, by_, inRow, rfl, -⟩ :=
          rotates_of_issued (numbered.old_of_mem inside) added joins
        exact ⟨row, inRow, (rotates row.id now by_ rfl row (mem_family.mp inRow).1 rfl).2⟩
    rcases TokenOp.becomes_used after with same | ⟨tokens, deduct, positive⟩
    · exact same.trans (charged.spent other t inside before)
    · exact absurd (charges.2 tokens deduct positive) before

theorem Charged.within (charged : s.Charged o) (numbered : s.Numbered)
    (unrevoked : s.OneUnrevoked) : s.WithinQuota o := by
  rintro limited ⟨t, mem, now, model, passes⟩
  obtain ⟨inForce, below⟩ := AccessToken.checkQuota_passes passes
  rw [charged.quota t mem] at below
  have nodup : (s.family o).Nodup :=
    (List.Nodup.of_map _ (List.pairwise_map.mpr numbered.distinct)).filter _
  have others : ∀ t' ∈ s.family o, t' ≠ t → t'.usedTokens = 0 := by
    refine fun t' mem' apart => charged.spent ⟨t, mem, inForce.2⟩ t' mem' fun live => apart ?_
    exact unrevoked o t' mem' t mem live inForce.2
  have alone : ((s.family o).map AccessToken.usedTokens).sum = t.usedTokens := by
    rw [List.sum_map_eq_nsmul_single t _ fun t' apart mem' => others t' mem' apart,
      List.count_eq_one_of_mem nodup mem, one_nsmul]
  rw [alone]
  exact below limited

/-! ## Runs -/

/-- What carries both laws along a run. -/
structure Kept (o : ℤ) (s : TokenRun) : Prop where
  numbered : s.Numbered
  unrevoked : s.OneUnrevoked
  charged : 0 ≤ s.granted o → s.Charged o

theorem OneUnrevoked.empty : TokenRun.empty.OneUnrevoked := by
  simp [OneUnrevoked, family, TokenRun.empty]

theorem Kept.empty : TokenRun.empty.Kept o where
  numbered := .empty
  unrevoked := .empty
  charged _ := ⟨by simp [family, TokenRun.empty], by simp [family, TokenRun.empty]⟩

theorem Kept.step (kept : s.Kept o) (rotates : RotatesInForce s op) (once : ChargedOnce s op)
    (keeps : KeepsQuota o s op) : (s.step op).Kept o where
  numbered := kept.numbered.step op
  unrevoked := kept.unrevoked.step kept.numbered rotates
  charged limited := by
    have charged : s.Charged o := by
      by_cases old : o < s.table.nextId
      · exact kept.charged (granted_step old ▸ limited)
      · -- nothing is in a family before its original is
        have none : ∀ t ∈ s.family o, False := fun t mem => old (kept.numbered.old_of_mem mem)
        exact ⟨fun t mem => (none t mem).elim, fun _ t mem => (none t mem).elim⟩
    exact charged.step kept.numbered kept.unrevoked limited rotates once keeps

/-- What is asked of the tokens of a run: at most one of each family is in force at any time, no
rotation revives a family, and a family whose quota is not updated stays within it. -/
structure FamilyLaw (ops : List TokenOp) : Prop where
  one : ∀ pre post, ops = pre ++ post → (runSchedule step empty pre).OneInForce
  notRevived : Along step NotRevived empty ops
  within : ∀ o, Along step (KeepsQuota o) empty ops →
    ∀ pre post, ops = pre ++ post → (runSchedule step empty pre).WithinQuota o

/-- **At most one token of each family is in force, and no rotation revives a family, just in the
runs that rotate only tokens in force; where they rotate only tokens that have used nothing of
their quota, and charge none that has been revoked, no family exceeds its quota.** -/
theorem tokenFamilies_law (ops : List TokenOp) :
    ((∀ pre post, ops = pre ++ post → (runSchedule step empty pre).OneInForce)
        ∧ Along step NotRevived empty ops
      ↔ Along step RotatesInForce empty ops)
      ∧ (Along step RotatesInForce empty ops → Along step ChargedOnce empty ops →
        FamilyLaw ops) := by
  have inForce := always_and_along_iff (fun s : TokenRun => s.Numbered ∧ s.OneUnrevoked)
    (fun s kept => kept.2.oneInForce)
    (fun s op kept rotates => ⟨kept.1.step op, kept.2.step kept.1 rotates⟩)
    (fun s op kept => oneInForce_step_iff kept.2 kept.1) ⟨Numbered.empty, OneUnrevoked.empty⟩ ops
  refine ⟨inForce, fun rotates once => ?_⟩
  obtain ⟨one, notRevived⟩ := inForce.mpr rotates
  refine ⟨one, notRevived, fun o keeps pre post split => ?_⟩
  subst split
  have before := along_and.mpr ⟨((along_append ..).mp rotates).1,
    along_and.mpr ⟨((along_append ..).mp once).1, ((along_append ..).mp keeps).1⟩⟩
  have kept := runSchedule_of_along (fun s : TokenRun => s.Kept o)
    (fun s op kept conds => kept.step conds.1 conds.2.1 conds.2.2) Kept.empty before
  intro limited
  exact (kept.charged limited).within kept.numbered kept.unrevoked limited

/-- A token with a quota is created and rotated out twice. -/
def rotatedTwice : List TokenOp :=
  [.create 1 "" 10 "" 0 "", .rotate 1 2 "", .rotate 1 3 ""]

/-- Both successors are in force. -/
theorem rotatedTwice_two_in_force : ¬ FamilyLaw rotatedTwice := by
  intro law
  exact absurd (law.one rotatedTwice [] rfl 1) (by decide +kernel)

/-- A token is created, rotated, and its successor used. -/
def rotatedOnce : List TokenOp :=
  [.create 1 "" 10 "" 0 "", .rotate 1 2 "", .deduct 2 9]

theorem rotatedOnce_law : FamilyLaw rotatedOnce := by
  have rows : ∀ t ∈ (TokenRun.empty.step (.create 1 "" 10 "" 0 "")).table.rows,
      t.InForce ∧ t.usedTokens = 0 := by decide +kernel
  have live : ∀ t ∈ (runSchedule step empty [.create 1 "" 10 "" 0 "", .rotate 1 2 ""]).table.rows,
      t.id = 2 → t.Unrevoked := by decide +kernel
  refine (tokenFamilies_law rotatedOnce).2 ⟨?_, ?_, ?_, trivial⟩ ⟨?_, ?_, ?_, trivial⟩
  · rintro _ _ _ ⟨⟩
  · rintro _ _ _ ⟨⟩ t mem -
    exact (rows t mem).1
  · rintro _ _ _ ⟨⟩
  · exact fun t _ _ => ⟨by rintro _ _ ⟨⟩, by rintro _ ⟨⟩⟩
  · exact fun t mem _ => ⟨fun _ _ _ => (rows t mem).2, by rintro _ ⟨⟩⟩
  · refine fun t mem _ => ⟨by rintro _ _ ⟨⟩, ?_⟩
    intro tokens same _
    injection same with id
    exact live t mem id.symm

end TokenRun

end Zhongzhuan.Store
