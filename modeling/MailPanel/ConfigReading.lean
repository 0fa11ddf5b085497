import MailPanel.ConfigFormats

/-
The account, alias and quota parsers read the formats: each record as its entry, and each
line without the documented shape as one issue.
-/

namespace MailPanel

namespace Parsers

open ScriptText NumberText Aliases Dms

section Lines

variable {text before after : List Char} {c : Char}

/-- The blanks of the format are blanks to the parsers. -/
theorem Blanks.isSpace {text : List Char} (hblanks : Blanks text) :
    ∀ c ∈ text, isSpace c = true := by
  intro c hc
  rcases hblanks c hc with rfl | rfl
  · decide
  · decide

/-- A trimmed text is found again in whatever blanks it stands. -/
theorem trim_padded {core : List Char} (hbefore : Blanks before) (hafter : Blanks after)
    (hcore : trim core = core) : trim (before ++ core ++ after) = core := by
  rw [trim_append_right hafter.isSpace, trim_append_left hbefore.isSpace, hcore]

/-- A line is skipped when it is blank or its first character that is no blank begins a
comment. -/
theorem isBlankOrComment_trim_iff : isBlankOrComment (trim text) = true ↔ Skipped text := by
  rw [isBlankOrComment, Bool.or_eq_true, List.isEmpty_iff, decide_eq_true_eq, trim_eq_nil_iff,
    Skipped]
  refine or_congr_right ⟨fun hhead => ?_, ?_⟩
  · obtain ⟨before, after, htext, hbefore, -⟩ := exists_trim text
    obtain ⟨rest, hrest⟩ := List.head?_eq_some_iff.mp hhead
    rw [hrest] at htext
    exact ⟨before, rest ++ after, htext, hbefore⟩
  · rintro ⟨blanks, comment, rfl, hblanks⟩
    rw [trim_append_cons (by decide), List.dropWhile_eq_nil_iff.mpr hblanks]
    rfl

/-- A line with a character of another kind in it is not skipped. -/
theorem not_skipped (hbefore : ∀ d ∈ before, isSpace d = true) (hspace : isSpace c = false)
    (hne : c ≠ '#') : ¬Skipped (before ++ c :: after) := by
  rw [← isBlankOrComment_trim_iff, trim_append_cons hspace,
    List.dropWhile_eq_nil_iff.mpr hbefore]
  simp [isBlankOrComment, hne]

end Lines

section Addresses

variable {tables : UnicodeTables} {value : String} {allowCatchAll : Bool}

/-- Characters that separate fields, or begin a comment. -/
def punctuation : List Char := ['|', ':', ',', '#']

/-- No letter or digit of any script is one of the marks by which lines are cut. -/
theorem isAlphanumeric_notMem {c : Char} (hc : isAlphanumeric tables c = true) :
    c ∉ punctuation := by
  have hneither : ∀ d ∈ punctuation, d.toNat < 128 ∧ (d.isAlpha || isDigit d) = false :=
    List.all_iff_forall_prop.mp (by decide)
  intro hmem
  obtain ⟨hascii, hplain⟩ := hneither c hmem
  rw [isAlphanumeric, tables.ascii_letter c hascii, tables.ascii_number c hascii, hplain] at hc
  cases hc

/-- The part of an accepted address before the `@` holds none of these marks. -/
theorem mem_localPart {text : List Char} {c : Char}
    (hlocal : localPartPattern tables text = true) (hc : c ∈ text) : c ∉ punctuation := by
  have hinner := edged_forall (fun d hd => by simp [hd]) hlocal c hc
  simp only [Bool.or_eq_true, decide_eq_true_eq] at hinner
  rcases hinner with halphanumeric | hlisted
  · exact isAlphanumeric_notMem halphanumeric
  · have hoff : ∀ d ∈ ['.', '_', '%', '+', '-'], d ∉ punctuation :=
      List.all_iff_forall_prop.mp (by decide)
    exact hoff c hlisted

/-- The domain of an accepted address holds none of these marks. -/
theorem mem_domainPart {text : List Char} {c : Char}
    (hdomain : isValidDomainShape tables text = true) (hc : c ∈ text) : c ∉ punctuation := by
  rcases mem_domain hdomain hc with rfl | rfl | halphanumeric
  · decide
  · decide
  · exact isAlphanumeric_notMem halphanumeric

theorem unbroken_of_blank (hblank : blank value = false) : Unbroken value.toList := by
  rw [blank, Bool.or_eq_false_iff, List.any_eq_false, List.any_eq_false] at hblank
  intro c hc
  exact ⟨Bool.eq_false_iff.mpr (hblank.1 c hc), Bool.eq_false_iff.mpr (hblank.2 c hc)⟩

/-- What the write path accepts as an address: a local part and a domain of their forms, or only
a domain where a catch-all is allowed. -/
theorem validateAddressForArgv_spec
    (hvalid : validateAddressForArgv tables value allowCatchAll = none) :
    Unbroken value.toList ∧ (∀ c ∈ value.toList, c ∉ punctuation) ∧
      ∃ localPart domain, value.toList = localPart ++ '@' :: domain ∧ domain ≠ [] ∧
        '@' ∉ localPart ∧ '@' ∉ domain ∧ (localPart = [] → allowCatchAll = true) := by
  simp only [validateAddressForArgv, check_eq_none, Bool.not_eq_true, Bool.and_eq_false_iff,
    Bool.not_eq_false', ne_eq, not_not, and_true] at hvalid
  obtain ⟨-, -, hblank, hcount, hcatchAll, hlocal, hshape⟩ := hvalid
  have hwhole := List.takeWhile_append_dropWhile (p := (· ≠ '@')) (l := value.toList)
  have hat : '@' ∉ value.toList.takeWhile (· ≠ '@') := by
    intro hmem
    simpa using List.mem_takeWhile_imp hmem
  have hdrop : value.toList.dropWhile (· ≠ '@') =
      '@' :: (value.toList.dropWhile (· ≠ '@')).drop 1 := by
    refine (dropWhile_ne_eq '@' value.toList).resolve_left fun hnone => ?_
    rw [hnone, List.append_nil] at hwhole
    rw [hwhole] at hat
    rw [List.count_eq_zero.mpr hat] at hcount
    cases hcount
  rw [hdrop] at hwhole
  have hlocal : ∀ c ∈ value.toList.takeWhile (· ≠ '@'), c ∉ punctuation := by
    intro c hc
    rcases hlocal with hempty | hpattern
    · rw [List.isEmpty_iff.mp hempty] at hc
      cases hc
    · exact mem_localPart hpattern hc
  generalize value.toList.takeWhile (· ≠ '@') = localPart at hwhole hat hlocal hcatchAll
  generalize (value.toList.dropWhile (· ≠ '@')).drop 1 = domain at hwhole hshape
  refine ⟨unbroken_of_blank hblank, ?_, localPart, domain, hwhole.symm, ?_, hat, ?_, ?_⟩
  · rw [← hwhole]
    intro c hc
    rcases List.mem_append.mp hc with hc | hc
    · exact hlocal c hc
    · rcases List.mem_cons.mp hc with rfl | hc
      · decide
      · exact mem_domainPart hshape hc
  · rintro rfl
    cases hshape
  · intro hmem
    rw [← hwhole, List.count_append, List.count_cons_self, List.count_eq_zero.mpr hat] at hcount
    have hpos := List.count_pos_iff.mpr hmem
    omega
  · rintro rfl
    rcases hcatchAll with hlocal | hcatchAll
    · cases hlocal
    · exact hcatchAll

/-- What the write path accepts is an address to the parsers. -/
theorem isAddress_of_valid (hvalid : validateAddressForArgv tables value false = none) :
    IsAddress value.toList := by
  obtain ⟨hvalue, -, localPart, domain, heq, hdomain, hat, hat', hcatchAll⟩ :=
    validateAddressForArgv_spec hvalid
  exact ⟨hvalue, localPart, domain, heq, fun hnil => Bool.false_ne_true (hcatchAll hnil),
    hdomain, hat, hat'⟩

/-- The parsers take an accepted address apart into the parts that it was made of. -/
theorem splitEmailAddress_of_valid (toLowerCase : String → String)
    (hvalid : validateAddressForArgv tables value false = none) :
    splitEmailAddress toLowerCase value.toList =
      some ⟨value, localPartOf value, toLowerCase (domainPartOf value)⟩ := by
  have hsplit := @splitEmailAddress_of_isAddress toLowerCase _
    (isAddress_of_valid hvalid)
  rwa [String.ofList_toList] at hsplit

/-- The same for the address of an alias, which may be a catch-all. -/
theorem splitAliasAddress_of_valid (toLowerCase : String → String)
    (hvalid : validateAddressForArgv tables value true = none) :
    splitAliasAddress toLowerCase value.toList =
      some ⟨value, localPartOf value, toLowerCase (domainPartOf value)⟩ := by
  obtain ⟨hvalue, -, localPart, domain, heq, hdomain, hat, hat', -⟩ :=
    validateAddressForArgv_spec hvalid
  by_cases hlocal : localPart = []
  · have hcatchAll : IsCatchAll value.toList :=
      ⟨hvalue, domain, by rw [heq, hlocal]; rfl, hdomain, hat'⟩
    have hsplit := @splitAliasAddress_of_isCatchAll toLowerCase _ hcatchAll
    rwa [String.ofList_toList] at hsplit
  · have haddress : IsAddress value.toList :=
      ⟨hvalue, localPart, domain, heq, hlocal, hdomain, hat, hat'⟩
    have hsplit := @splitEmailAddress_of_isAddress toLowerCase _ haddress
    rw [String.ofList_toList] at hsplit
    rw [splitAliasAddress_of_isAddress haddress, hsplit]

/-- An address is its own trimmed text, and begins with what begins no comment. -/
theorem address_head (hvalid : validateAddressForArgv tables value allowCatchAll = none) :
    trim value.toList = value.toList ∧ ∃ c rest, value.toList = c :: rest ∧
      isSpace c = false ∧ c ≠ '#' := by
  obtain ⟨hvalue, hplain, localPart, domain, heq, -⟩ := validateAddressForArgv_spec hvalid
  refine ⟨trim_of_forall fun c hc => (hvalue c hc).1, ?_⟩
  cases htext : value.toList with
  | nil =>
      rw [htext] at heq
      exact absurd heq.symm (by simp)
  | cons c rest =>
      have hc : c ∈ value.toList := by
        rw [htext]
        exact List.mem_cons_self
      refine ⟨c, rest, rfl, (hvalue c hc).1, ?_⟩
      rintro rfl
      exact hplain '#' hc (by decide)

end Addresses

section Accounts

variable {tables : UnicodeTables} {toLowerCase : String → String} {text : List Char}

/-- Fields make an account when the first is an address and the second is not empty, and
otherwise an issue. -/
theorem parseAccountFields_spec (issue : String → Except ParseIssue PostfixAccountEntry)
    (email passwordHash attributes : List Char) :
    (IsAddress email ∧ passwordHash ≠ [] →
      parseAccountFields toLowerCase issue email passwordHash attributes =
        .ok ⟨String.ofList email, localPartOf (String.ofList email),
          toLowerCase (domainPartOf (String.ofList email)), String.ofList passwordHash,
          String.ofList attributes⟩) ∧
    (¬(IsAddress email ∧ passwordHash ≠ []) → ∃ reason,
      parseAccountFields toLowerCase issue email passwordHash attributes = issue reason) := by
  rw [parseAccountFields]
  by_cases haddress : IsAddress email
  · rw [splitEmailAddress_of_isAddress haddress]
    dsimp only
    by_cases hempty : passwordHash = []
    · subst hempty
      exact ⟨fun h => absurd rfl h.2, fun _ => ⟨_, rfl⟩⟩
    · have hfalse : passwordHash.isEmpty = false := List.isEmpty_eq_false_iff.mpr hempty
      rw [hfalse, if_neg Bool.false_ne_true]
      exact ⟨fun _ => rfl, fun h => absurd ⟨haddress, hempty⟩ h⟩
  · rw [splitEmailAddress_eq_none haddress]
    exact ⟨fun h => absurd h.1 haddress, fun _ => ⟨_, rfl⟩⟩

/-- A line that is not skipped is judged by its fields, cut at the bars. Trimming the line first
changes nothing, since each field is trimmed too. -/
theorem parseAccountLine_of_fields {lineNumber : Nat} {fields : List (List Char)}
    (hskipped : ¬Skipped text) (hfields : text.splitOn '|' = fields) :
    parseAccountLine toLowerCase lineNumber text =
      match fields.map trim with
      | [email, passwordHash] => some (parseAccountFields toLowerCase
          (fun reason => .error ⟨lineNumber, String.ofList text, reason⟩) email passwordHash [])
      | [email, passwordHash, attributes] => some (parseAccountFields toLowerCase
          (fun reason => .error ⟨lineNumber, String.ofList text, reason⟩) email passwordHash
            attributes)
      | fields => some (.error ⟨lineNumber, String.ofList text,
          "expected \"email|hash\" or \"email|hash|attributes\" " ++
            "(2 or 3 pipe-delimited fields), found " ++ toString fields.length⟩) := by
  rw [← isBlankOrComment_trim_iff] at hskipped
  have hsplit : ((trim text).splitOn '|').map trim = fields.map trim := by
    rw [map_trim_splitOn (by decide), hfields]
  generalize fields.map trim = parts at hsplit ⊢
  subst hsplit
  rw [parseAccountLine]
  exact if_neg hskipped

/-- A field of a record, with its blanks, is the field, as nothing in it cuts the line. -/
theorem bar_notMem_padded {before core after : List Char} (hbefore : Blanks before)
    (hafter : Blanks after) (hcore : '|' ∉ core) : '|' ∉ before ++ core ++ after := by
  intro hmem
  rcases List.mem_append.mp hmem with hmem | hmem
  · rcases List.mem_append.mp hmem with hmem | hmem
    · exact absurd (hbefore.isSpace '|' hmem) (by decide)
    · exact hcore hmem
  · exact absurd (hafter.isSpace '|' hmem) (by decide)

/-- The fields of a written account, with their blanks, are those of the account. -/
theorem account_fields {account : Account} (hvalid : account.Valid tables)
    (hrenders : account.Renders text) :
    ¬Skipped text ∧ ∃ email passwordHash, trim email = account.email.toList ∧
      trim passwordHash = account.passwordHash.toList ∧
      ((account.attributes = "" ∧ text.splitOn '|' = [email, passwordHash]) ∨
        ∃ attributes, trim attributes = account.attributes.toList ∧
          text.splitOn '|' = [email, passwordHash, attributes]) := by
  obtain ⟨before, afterEmail, beforeHash, afterHash, rest, hbefore, hafterEmail, hbeforeHash,
    hafterHash, rfl, hrest⟩ := hrenders
  obtain ⟨hemail, c, chars, hchars, hspace, hne⟩ := address_head hvalid.email
  have hplain := (validateAddressForArgv_spec hvalid.email).2.1
  have hbar : '|' ∉ account.email.toList := fun hmem => hplain '|' hmem (by decide)
  have hbar' : '|' ∉ account.passwordHash.toList := fun hmem => (hvalid.hash '|' hmem).1 rfl
  have hhash : trim account.passwordHash.toList = account.passwordHash.toList :=
    trim_of_forall fun c hc => (hvalid.hash c hc).2
  refine ⟨?_, _, _, trim_padded hbefore hafterEmail hemail,
    trim_padded hbeforeHash hafterHash hhash, ?_⟩
  · rw [hchars, List.append_assoc, List.append_assoc, List.cons_append]
    exact not_skipped hbefore.isSpace hspace hne
  · rw [List.splitOn_append_cons_self_of_not_mem
      (bar_notMem_padded hbefore hafterEmail hbar)]
    rcases hrest with ⟨rfl, hattributes⟩ | ⟨beforeAttributes, after, hbeforeAttributes, hafter, rfl⟩
    · rw [List.append_nil, List.splitOn_eq_singleton
        (bar_notMem_padded hbeforeHash hafterHash hbar')]
      exact Or.inl ⟨hattributes, rfl⟩
    · rw [List.splitOn_append_cons_self_of_not_mem
        (bar_notMem_padded hbeforeHash hafterHash hbar'), List.splitOn_eq_singleton
        (bar_notMem_padded hbeforeAttributes hafter hvalid.attributes.1)]
      exact Or.inr ⟨_, trim_padded hbeforeAttributes hafter hvalid.attributes.2, rfl⟩

/-- The parser of accounts inverts their format: every record is read back, and every other line
is an issue or skipped. -/
theorem reads_accounts : Reads (parseAccountLine toLowerCase) (Account.entry toLowerCase)
    (accountFormat tables) where
  skipped := by
    intro lineNumber text hskipped
    rw [parseAccountLine, if_pos (isBlankOrComment_trim_iff.mpr hskipped)]
  record := by
    rintro lineNumber account text ⟨hvalid, hrenders⟩
    obtain ⟨hskipped, email, passwordHash, hemail, hhash, hfields⟩ :=
      account_fields hvalid hrenders
    have hok : ∀ attributes : List Char, attributes = account.attributes.toList →
        parseAccountFields toLowerCase
          (fun reason => .error ⟨lineNumber, String.ofList text, reason⟩)
          account.email.toList account.passwordHash.toList attributes =
            .ok (account.entry toLowerCase) := by
      rintro _ rfl
      rw [(parseAccountFields_spec _ _ _ _).1 ⟨isAddress_of_valid hvalid.email,
        fun hnil => hvalid.hash_ne (String.toList_eq_nil_iff.mp hnil)⟩]
      simp only [String.ofList_toList]
      rfl
    rcases hfields with ⟨hnone, hfields⟩ | ⟨attributes, hattributes, hfields⟩
    · rw [parseAccountLine_of_fields hskipped hfields, List.map_cons, List.map_singleton, hemail,
        hhash]
      exact congrArg some (hok [] (by rw [hnone]; rfl))
    · rw [parseAccountLine_of_fields hskipped hfields, List.map_cons, List.map_cons,
        List.map_singleton, hemail, hhash]
      exact congrArg some (hok _ hattributes)
  malformed := by
    rintro lineNumber text ⟨hskipped, hshape⟩
    have hissue : ∀ email passwordHash attributes,
        ¬(IsAddress (trim email) ∧ trim passwordHash ≠ []) → ∃ reason,
          some (parseAccountFields toLowerCase
            (fun reason => .error ⟨lineNumber, String.ofList text, reason⟩)
            (trim email) (trim passwordHash) attributes) =
              some (.error ⟨lineNumber, String.ofList text, reason⟩) := by
      intro email passwordHash attributes hnot
      obtain ⟨reason, hreason⟩ := (@parseAccountFields_spec toLowerCase
        (fun reason => .error ⟨lineNumber, String.ofList text, reason⟩) _ _ attributes).2 hnot
      exact ⟨reason, congrArg some hreason⟩
    cases hfields : text.splitOn '|' with
    | nil => exact absurd hfields (List.splitOn_ne_nil '|' text)
    | cons email others =>
        rw [parseAccountLine_of_fields hskipped hfields]
        match others, hfields with
        | [], _ => exact ⟨_, rfl⟩
        | [passwordHash], hfields =>
            refine hissue email passwordHash _ fun hvalid => hshape ?_
            exact ⟨email, passwordHash, hvalid.1, hvalid.2, Or.inl hfields⟩
        | [passwordHash, attributes], hfields =>
            refine hissue email passwordHash _ fun hvalid => hshape ?_
            exact ⟨email, passwordHash, hvalid.1, hvalid.2, Or.inr ⟨attributes, hfields⟩⟩
        | _ :: _ :: _ :: _, _ => exact ⟨_, rfl⟩

end Accounts

section Quotas

variable {tables : UnicodeTables} {toLowerCase : String → String} {text : List Char}

theorem takeWhile_colon {before after : List Char} (hbefore : ':' ∉ before) :
    (before ++ ':' :: after).takeWhile (· ≠ ':') = before ∧
      (before ++ ':' :: after).dropWhile (· ≠ ':') = ':' :: after := by
  have hall : ∀ c ∈ before, decide (c ≠ ':') = true := by
    intro c hc
    rw [decide_eq_true_eq]
    rintro rfl
    exact hbefore hc
  rw [List.takeWhile_append_of_pos hall, List.dropWhile_append_of_pos hall]
  simp

theorem mem_of_mem_trim {c : Char} (hc : c ∈ trim text) : c ∈ text := by
  obtain ⟨before, after, htext, -, -⟩ := exists_trim text
  rw [htext]
  exact List.mem_append_right _ (List.mem_append_left _ hc)

/-- A line with a colon is judged by what stands before and after its first one. -/
theorem parseQuotaLine_of_colon {lineNumber : Nat} {email quota : List Char}
    (hskipped : ¬Skipped (email ++ ':' :: quota)) (hcolon : ':' ∉ email) :
    (IsAddress (trim email) ∧ trim quota ≠ [] →
      parseQuotaLine toLowerCase lineNumber (email ++ ':' :: quota) =
        some (.ok ⟨String.ofList (trim email), localPartOf (String.ofList (trim email)),
          toLowerCase (domainPartOf (String.ofList (trim email))),
          String.ofList (trim quota)⟩)) ∧
    (¬(IsAddress (trim email) ∧ trim quota ≠ []) → ∃ reason,
      parseQuotaLine toLowerCase lineNumber (email ++ ':' :: quota) =
        some (.error ⟨lineNumber, String.ofList (email ++ ':' :: quota), reason⟩)) := by
  rw [← isBlankOrComment_trim_iff] at hskipped
  have hfront : ':' ∉ email.dropWhile isSpace :=
    fun hmem => hcolon ((List.dropWhile_sublist _).mem hmem)
  obtain ⟨htake, hdrop⟩ := @takeWhile_colon _ (trimEnd quota) hfront
  rw [parseQuotaLine, if_neg hskipped, trim_append_cons (by decide), htake, hdrop]
  dsimp only
  rw [trim_dropWhile, trim_trimEnd]
  by_cases haddress : IsAddress (trim email)
  · rw [splitEmailAddress_of_isAddress haddress]
    dsimp only
    by_cases hempty : trim quota = []
    · rw [hempty]
      exact ⟨fun h => absurd rfl h.2, fun _ => ⟨_, rfl⟩⟩
    · rw [List.isEmpty_eq_false_iff.mpr hempty, if_neg Bool.false_ne_true]
      exact ⟨fun _ => rfl, fun h => absurd ⟨haddress, hempty⟩ h⟩
  · rw [splitEmailAddress_eq_none haddress]
    exact ⟨fun h => absurd h.1 haddress, fun _ => ⟨_, rfl⟩⟩

/-- The parser of quotas inverts their format, blank lines, comments and malformed lines
included. -/
theorem reads_quotas : Reads (parseQuotaLine toLowerCase) (Quota.entry toLowerCase)
    (quotaFormat tables) where
  skipped := by
    intro lineNumber text hskipped
    rw [parseQuotaLine, if_pos (isBlankOrComment_trim_iff.mpr hskipped)]
  record := by
    rintro lineNumber quota text ⟨⟨hemail, hquota⟩, hrenders⟩
    obtain ⟨before, afterEmail, beforeQuota, after, hbefore, hafterEmail, hbeforeQuota, hafter,
      rfl⟩ := hrenders
    obtain ⟨htrim, c, chars, hchars, hspace, hne⟩ := address_head hemail
    have hplain := (validateAddressForArgv_spec hemail).2.1
    have htrim' : trim quota.quota.toList = quota.quota.toList :=
      trim_of_forall fun c hc => ((PlainLeaf.of_quota hquota).chars c hc).space
    have hcolon : ':' ∉ before ++ quota.email.toList ++ afterEmail := by
      intro hmem
      rcases List.mem_append.mp hmem with hmem | hmem
      · rcases List.mem_append.mp hmem with hmem | hmem
        · exact absurd (hbefore.isSpace ':' hmem) (by decide)
        · exact hplain ':' hmem (by decide)
      · exact absurd (hafterEmail.isSpace ':' hmem) (by decide)
    have hskipped : ¬Skipped (before ++ quota.email.toList ++ afterEmail ++ ':' ::
        (beforeQuota ++ quota.quota.toList ++ after)) := by
      rw [hchars, List.append_assoc, List.append_assoc, List.cons_append]
      exact not_skipped hbefore.isSpace hspace hne
    have hne : quota.quota.toList ≠ [] := by
      intro hnil
      rw [String.toList_eq_nil_iff.mp hnil] at hquota
      cases hquota
    have hread := (@parseQuotaLine_of_colon toLowerCase lineNumber _ _ hskipped hcolon).1
    rw [trim_padded hbefore hafterEmail htrim, trim_padded hbeforeQuota hafter htrim',
      String.ofList_toList, String.ofList_toList] at hread
    exact hread ⟨isAddress_of_valid hemail, hne⟩
  malformed := by
    rintro lineNumber text ⟨hskipped, hshape⟩
    by_cases hcolon : ':' ∈ text
    · obtain ⟨email, quota, rfl, hfirst⟩ := List.eq_append_cons_of_mem hcolon
      refine (parseQuotaLine_of_colon hskipped hfirst).2 fun hvalid => hshape ?_
      exact ⟨email, quota, rfl, hfirst, hvalid⟩
    · rw [← isBlankOrComment_trim_iff] at hskipped
      have hdrop : (trim text).dropWhile (· ≠ ':') = [] := by
        rw [List.dropWhile_eq_nil_iff]
        intro c hc
        rw [decide_eq_true_eq]
        rintro rfl
        exact hcolon (mem_of_mem_trim hc)
      rw [parseQuotaLine, if_neg hskipped, hdrop]
      exact ⟨_, rfl⟩

end Quotas

section Aliases

variable {tables : UnicodeTables} {toLowerCase : String → String} {text : List Char}

/-- The words of a line are split at its first white space, and the rest are recipients. -/
theorem splitAddressAndRecipients_of_gap {address gap recipients : List Char}
    (haddress : ∀ c ∈ address, isSpace c = false) (hne : address ≠ [])
    (hgap : ∀ c ∈ gap, isSpace c = true) (hgap_ne : gap ≠ [])
    (hhead : ∃ c rest, recipients = c :: rest ∧ isSpace c = false)
    (hline : ∀ c ∈ recipients, c ∉ lineSeparators) :
    splitAddressAndRecipients (address ++ (gap ++ recipients)) = some (address, recipients) := by
  have hall : ∀ c ∈ address, (!isSpace c) = true := by
    intro c hc
    rw [haddress c hc]
    rfl
  obtain ⟨blank, gap, rfl⟩ := List.exists_cons_of_ne_nil hgap_ne
  obtain ⟨c, rest, rfl, hspace⟩ := hhead
  have hblank := hgap blank List.mem_cons_self
  have hstop : (blank :: gap ++ c :: rest).takeWhile (fun c => !isSpace c) = [] ∧
      (blank :: gap ++ c :: rest).dropWhile (fun c => !isSpace c) =
        blank :: gap ++ c :: rest := by
    simp [hblank]
  have hdrop : (blank :: gap ++ c :: rest).dropWhile isSpace = c :: rest := by
    rw [dropWhile_append_cons hspace, List.dropWhile_eq_nil_iff.mpr hgap]
    rfl
  have hsafe : ((c :: rest).any fun c => c ∈ ['\n', '\r', '\u2028', '\u2029']) = false := by
    rw [List.any_eq_false]
    intro d hd
    simpa [lineSeparators] using hline d hd
  rw [splitAddressAndRecipients, List.takeWhile_append_of_pos hall,
    List.dropWhile_append_of_pos hall, hstop.1, hstop.2, hdrop, List.append_nil, hsafe]
  simp [hne]

/-- What the split leaves is an address, white space and the rest, or nothing when there is no
white space. -/
theorem splitAddressAndRecipients_spec {address recipients : List Char}
    (hsplit : splitAddressAndRecipients text = some (address, recipients)) :
    ∃ gap, text = address ++ (gap ++ recipients) ∧ gap ≠ [] ∧
      (∀ c ∈ gap, isSpace c = true) ∧ (∀ c, recipients.head? = some c → isSpace c = false) ∧
      ∀ c ∈ recipients, c ∉ lineSeparators := by
  rw [splitAddressAndRecipients] at hsplit
  split at hsplit
  · cases hsplit
  rename_i hparts
  simp only [Bool.or_eq_true, List.isEmpty_iff, not_or, List.any_eq_true, not_exists,
    not_and] at hparts
  obtain ⟨⟨-, hrecipients⟩, hline⟩ := hparts
  obtain ⟨rfl, rfl⟩ := Prod.mk.inj (Option.some.inj hsplit)
  generalize hrest : text.dropWhile (fun c => !isSpace c) = rest at hrecipients hline ⊢
  have hwhole := List.takeWhile_append_dropWhile (p := fun c => !isSpace c) (l := text)
  rw [hrest] at hwhole
  refine ⟨rest.takeWhile isSpace, ?_, ?_, fun c hc => List.mem_takeWhile_imp hc, ?_, ?_⟩
  · rw [List.takeWhile_append_dropWhile, hwhole]
  · intro hnil
    cases rest with
    | nil => exact hrecipients rfl
    | cons c rest =>
        have hspace : isSpace c = true := by
          have hhead := List.head?_dropWhile_not (fun c => !isSpace c) text
          rw [hrest] at hhead
          simpa using hhead
        rw [List.takeWhile_cons, if_pos hspace] at hnil
        cases hnil
  · intro c hc
    have hhead := List.head?_dropWhile_not isSpace rest
    rw [hc] at hhead
    simpa using hhead
  · intro c hc hmem
    refine hline c hc ?_
    simpa [lineSeparators] using hmem

def isSeparator (c : Char) : Bool := c = ',' || isSpace c

theorem recipientTokens_eq (recipients : List Char) :
    recipientTokens recipients =
      (recipients.splitOnP isSeparator).filter fun token => !token.isEmpty :=
  rfl

/-- Separators in front of the recipients do not count. -/
theorem recipientTokens_append {separator : List Char} (rest : List Char)
    (hseparator : ∀ c ∈ separator, isSeparator c = true) :
    recipientTokens (separator ++ rest) = recipientTokens rest := by
  induction separator with
  | nil => rfl
  | cons c separator ih =>
      rw [← ih fun d hd => hseparator d (List.mem_cons_of_mem c hd), recipientTokens_eq,
        recipientTokens_eq, List.cons_append, List.splitOnP_cons_eq_if_modifyHead,
        if_pos (hseparator c List.mem_cons_self)]
      rfl

/-- A word followed by separators is a recipient, and the others follow. -/
theorem recipientTokens_word {word separator rest : List Char} (hword : word ≠ [])
    (hchars : ∀ c ∈ word, isSeparator c = false) (hne : separator ≠ [])
    (hseparator : ∀ c ∈ separator, isSeparator c = true) :
    recipientTokens (word ++ (separator ++ rest)) = word :: recipientTokens rest := by
  obtain ⟨c, separator, rfl⟩ := List.exists_cons_of_ne_nil hne
  rw [recipientTokens_eq, List.cons_append, List.splitOnP_append_cons_of_forall_mem hchars c
      (hseparator c List.mem_cons_self), List.filter_cons, ← recipientTokens_eq,
    recipientTokens_append rest fun d hd => hseparator d (List.mem_cons_of_mem c hd)]
  rw [List.isEmpty_eq_false_iff.mpr hword]
  rfl

/-- An accepted recipient holds no separator, so that it is read as one word. -/
theorem isSeparator_recipient {recipient : String}
    (hvalid : validateAddressForArgv tables recipient false = none) :
    ∀ c ∈ recipient.toList, isSeparator c = false := by
  obtain ⟨hvalue, hplain, -⟩ := validateAddressForArgv_spec hvalid
  intro c hc
  have hcomma : c ≠ ',' := by
    rintro rfl
    exact hplain ',' hc (by decide)
  rw [isSeparator, (hvalue c hc).1, decide_eq_false hcomma]
  rfl

/-- The words of joined recipients are the recipients, and no blank stands at the ends. -/
theorem Joined.spec {recipients : List String} (hjoined : Joined recipients text)
    (hvalid : ∀ recipient ∈ recipients, validateAddressForArgv tables recipient false = none) :
    recipientTokens text = recipients.map String.toList ∧
      (∃ c rest, text = c :: rest ∧ isSpace c = false) ∧
      (∃ init c, text = init ++ [c] ∧ isSpace c = false) ∧
      ∀ c ∈ text, c ∉ lineSeparators := by
  have hline : ∀ c ∈ lineSeparators, isSpace c = true := List.all_iff_forall_prop.mp (by decide)
  induction hjoined with
  | one recipient =>
      have hvalid := hvalid recipient List.mem_cons_self
      obtain ⟨-, c, rest, htext, hspace, -⟩ := address_head hvalid
      have hunbroken := (validateAddressForArgv_spec hvalid).1
      have hne : recipient.toList ≠ [] := by
        rw [htext]
        exact List.cons_ne_nil c rest
      refine ⟨?_, ⟨c, rest, htext, hspace⟩, ⟨_, _, (List.dropLast_append_getLast hne).symm,
        (hunbroken _ (List.getLast_mem hne)).1⟩, ?_⟩
      · rw [recipientTokens_eq, List.splitOnP_eq_singleton (isSeparator_recipient hvalid),
          List.filter_singleton, List.isEmpty_eq_false_iff.mpr hne]
        rfl
      · intro c hc hmem
        exact Bool.false_ne_true ((hunbroken c hc).1.symm.trans (hline c hmem))
  | more recipient separator hne hseparator hjoined ih =>
      rename_i others rest
      obtain ⟨htokens, -, ⟨init, last, hinit, hlast⟩, hrest⟩ :=
        ih fun other hother => hvalid other (List.mem_cons_of_mem recipient hother)
      have hvalid := hvalid recipient List.mem_cons_self
      obtain ⟨-, c, chars, htext, hspace, -⟩ := address_head hvalid
      have hunbroken := (validateAddressForArgv_spec hvalid).1
      have hword : recipient.toList ≠ [] := by
        rw [htext]
        exact List.cons_ne_nil c chars
      have hbetween : ∀ c ∈ separator, isSeparator c = true ∧ c ∉ lineSeparators := by
        intro c hc
        rcases hseparator c hc with rfl | rfl | rfl
        · decide
        · decide
        · decide
      refine ⟨?_, ⟨c, chars ++ (separator ++ rest), by rw [htext]; rfl, hspace⟩,
        ⟨recipient.toList ++ (separator ++ init), last, by rw [hinit]; simp, hlast⟩, ?_⟩
      · rw [recipientTokens_word hword (isSeparator_recipient hvalid) hne
          fun c hc => (hbetween c hc).1, htokens]
        rfl
      · intro c hc
        rcases List.mem_append.mp hc with hc | hc
        · intro hmem
          exact Bool.false_ne_true ((hunbroken c hc).1.symm.trans (hline c hmem))
        · rcases List.mem_append.mp hc with hc | hc
          · exact (hbetween c hc).2
          · exact hrest c hc

/-- The parser of aliases inverts their format, blank lines, comments and malformed lines
included. -/
theorem reads_aliases : Reads (parseLine toLowerCase) (AliasRecord.entry toLowerCase)
    (aliasFormat tables) where
  skipped := by
    intro lineNumber text hskipped
    rw [parseLine, if_pos (isBlankOrComment_trim_iff.mpr hskipped)]
  record := by
    rintro lineNumber record text ⟨hvalid, hrenders⟩
    obtain ⟨before, gap, recipients, after, hbefore, hgap, hgap_ne, hafter, hjoined, rfl⟩ :=
      hrenders
    obtain ⟨htokens, hhead, ⟨init, last, hinit, hlast⟩, hline⟩ := hjoined.spec hvalid.recipients
    obtain ⟨-, c, chars, hchars, hspace, hne⟩ := address_head hvalid.address
    have hunbroken := (validateAddressForArgv_spec hvalid.address).1
    have hskipped : ¬Skipped (before ++ (record.address.toList ++ (gap ++ recipients)) ++ after) := by
      rw [hchars, List.append_assoc, List.cons_append, List.cons_append]
      exact not_skipped hbefore.isSpace hspace hne
    have hcore : trim (record.address.toList ++ (gap ++ recipients)) =
        record.address.toList ++ (gap ++ recipients) := by
      rw [hchars, hinit]
      have hend : trimEnd (chars ++ gap ++ init ++ [last]) = chars ++ gap ++ init ++ [last] :=
        List.rdropWhile_concat_neg _ _ last (Bool.eq_false_iff.mp hlast)
      have hstart := trim_append_cons hspace [] (chars ++ gap ++ init ++ [last])
      rw [hend] at hstart
      simpa using hstart
    have haddress_ne : record.address.toList ≠ [] := by
      rw [hchars]
      exact List.cons_ne_nil c chars
    rw [← isBlankOrComment_trim_iff] at hskipped
    have hsplit := splitAddressAndRecipients_of_gap (fun c hc => (hunbroken c hc).1) haddress_ne
      hgap.isSpace hgap_ne hhead hline
    have hnone : (recipientTokens recipients).find?
        (fun token => (splitEmailAddress toLowerCase token).isNone) = none := by
      rw [htokens, List.find?_eq_none]
      intro token htoken
      obtain ⟨recipient, hrecipient, rfl⟩ := List.mem_map.mp htoken
      rw [splitEmailAddress_of_valid toLowerCase (hvalid.recipients recipient hrecipient)]
      exact Bool.false_ne_true
    rw [parseLine, if_neg hskipped, trim_padded hbefore hafter hcore, hsplit]
    dsimp only
    rw [splitAliasAddress_of_valid toLowerCase hvalid.address]
    dsimp only
    have hnonempty : (recipientTokens recipients).isEmpty = false := by
      rw [htokens, List.isEmpty_eq_false_iff, ne_eq, List.map_eq_nil_iff]
      exact hvalid.recipients_ne
    have hrecipients : (recipientTokens recipients).map String.ofList = record.recipients := by
      rw [htokens, List.map_map]
      exact List.map_id'' (fun recipient => String.ofList_toList) _
    rw [hnonempty, if_neg Bool.false_ne_true, hnone, hrecipients]
    rfl
  malformed := by
    rintro lineNumber text ⟨hskipped, hshape⟩
    rw [← isBlankOrComment_trim_iff] at hskipped
    rw [parseLine, if_neg hskipped]
    cases hsplit : splitAddressAndRecipients (trim text) with
    | none => exact ⟨_, rfl⟩
    | some fields =>
        obtain ⟨address, recipients⟩ := fields
        dsimp only
        cases haddress : splitAliasAddress toLowerCase address with
        | none => exact ⟨_, rfl⟩
        | some split =>
            dsimp only
            by_cases hempty : (recipientTokens recipients).isEmpty = true
            · rw [if_pos hempty]
              exact ⟨_, rfl⟩
            · rw [if_neg hempty]
              cases hinvalid : (recipientTokens recipients).find?
                  (fun token => (splitEmailAddress toLowerCase token).isNone) with
              | some invalid => exact ⟨_, rfl⟩
              | none =>
                  refine absurd ?_ hshape
                  obtain ⟨gap, htext, hgap_ne, hgap, hhead, hline⟩ :=
                    splitAddressAndRecipients_spec hsplit
                  refine ⟨address, gap, recipients, htext, isAliasAddress_of_split haddress,
                    hgap_ne, hgap, hhead, hline, fun hnil => hempty (by rw [hnil]; rfl), ?_⟩
                  intro word hword
                  have hsome := List.find?_eq_none.mp hinvalid word hword
                  by_contra hnot
                  exact hsome (by rw [splitEmailAddress_eq_none hnot]; rfl)

end Aliases

/-- Whatever stands in a file of accounts, of aliases or of quotas: the records are read in
their order, with their fields, and every malformed line gives one issue, with its number and
its text. The files may hold comments, blank lines and any spacing that their formats allow. -/
theorem parsers_invert_formats (tables : UnicodeTables) (toLowerCase : String → String) :
    (∀ file : ConfigFile Account, (accountFormat tables).Wrote file →
      (parsePostfixAccounts toLowerCase file.content).entries =
          file.records.map (Account.entry toLowerCase) ∧
        (parsePostfixAccounts toLowerCase file.content).issues.map
            (fun issue => (issue.line, issue.raw)) = file.malformed) ∧
    (∀ file : ConfigFile AliasRecord, (aliasFormat tables).Wrote file →
      (parsePostfixVirtual toLowerCase file.content).entries =
          file.records.map (AliasRecord.entry toLowerCase) ∧
        (parsePostfixVirtual toLowerCase file.content).issues.map
            (fun issue => (issue.line, issue.raw)) = file.malformed) ∧
    ∀ file : ConfigFile Quota, (quotaFormat tables).Wrote file →
      (parseDovecotQuotas toLowerCase file.content).entries =
          file.records.map (Quota.entry toLowerCase) ∧
        (parseDovecotQuotas toLowerCase file.content).issues.map
            (fun issue => (issue.line, issue.raw)) = file.malformed := by
  refine ⟨fun file hwrote => reads_accounts.file hwrote, fun file hwrote => ?_,
    fun file hwrote => reads_quotas.file hwrote⟩
  rw [parsePostfixVirtual_eq]
  exact reads_aliases.file hwrote

/- A table of aliases with a comment, a catch-all and a line without recipients. -/
namespace SmallTable

def team : AliasRecord := ⟨"@example.com", ["ann@example.com", "bob+x@example.net"]⟩

def table : ConfigFile AliasRecord :=
  ⟨[((.skipped, "# aliases".toList), .crlf),
      ((.record team, "\t@example.com  ann@example.com , bob+x@example.net ".toList), .lf),
      ((.malformed, "sales@example.com".toList), .crlf)],
    (.skipped, [])⟩

theorem team_valid : team.Valid .ascii where
  address := by decide
  recipients_ne := List.cons_ne_nil _ _
  recipients := by decide

theorem team_renders :
    team.Renders "\t@example.com  ann@example.com , bob+x@example.net ".toList := by
  refine ⟨['\t'], [' ', ' '], "ann@example.com , bob+x@example.net".toList, [' '], ?_, ?_,
    List.cons_ne_nil _ _, ?_, ?_, by decide⟩
  · simp [Blanks]
  · simp [Blanks]
  · simp [Blanks]
  · exact .more "ann@example.com" [' ', ',', ' '] (List.cons_ne_nil _ _) (by simp)
      (.one "bob+x@example.net")

theorem sales_malformed : ¬AliasShape "sales@example.com".toList := by
  rintro ⟨address, gap, recipients, htext, -, hne, hgap, -⟩
  obtain ⟨c, hc⟩ := List.exists_mem_of_ne_nil gap hne
  have hmem : c ∈ trim "sales@example.com".toList := by
    rw [htext]
    exact List.mem_append_right _ (List.mem_append_left _ hc)
  have hplain : ∀ d ∈ trim "sales@example.com".toList, isSpace d = false :=
    List.all_iff_forall_prop.mp (by decide)
  exact Bool.false_ne_true ((hplain c hmem).symm.trans (hgap c hc))

/-- A file with a comment, a catch-all with two recipients in odd spacing and a line that is no
alias. -/
theorem table_read :
    (parsePostfixVirtual id table.content).entries = [team.entry id] ∧
      (parsePostfixVirtual id table.content).issues.map (fun issue => (issue.line, issue.raw)) =
        [(3, "sales@example.com")] := by
  refine (parsers_invert_formats .ascii id).2.1 table ?_
  have hlines : ∀ line ∈ table.all, '\n' ∉ line.2 ∧ '\r' ∉ line.2 := by decide
  refine fun line hline => ⟨hlines line hline, ?_⟩
  simp only [ConfigFile.all, table, List.map_cons, List.map_nil, List.cons_append,
    List.nil_append, List.mem_cons, List.not_mem_nil, or_false] at hline
  rcases hline with rfl | rfl | rfl | rfl
  · exact isBlankOrComment_trim_iff.mp (by decide)
  · exact ⟨team_valid, team_renders⟩
  · refine ⟨fun hskipped => ?_, sales_malformed⟩
    exact absurd (isBlankOrComment_trim_iff.mpr hskipped) (by decide)
  · exact Or.inl fun c hc => absurd hc List.not_mem_nil

end SmallTable

end Parsers

end MailPanel
