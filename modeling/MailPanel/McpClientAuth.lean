import MailPanel.Base64Url
import MailPanel.McpSingleUse
import MailPanel.PercentText

/-
The authentication of a client, from the texts of its request: what it may be let in with,
and how it fails.
-/

namespace MailPanel

namespace Mcp

open RowTable ScriptText

/-- The input of `authenticate`. -/
structure AuthenticationInput where
  authorizationHeader : Option (List Char)
  bodyClientId : Option String
  bodyClientSecret : Option (List Char)
deriving DecidableEq, Repr

/-- What an `authenticate` throws. -/
inductive Thrown where
  | oauth (error : OAuthError)
  | uriError
deriving DecidableEq, Repr

/-- No other character than a letter of ASCII has one of the scheme as its lower case. -/
def isBasic (header : List Char) : Bool :=
  (header.take 6).map Char.toLower = "basic ".toList

def decodedHeader (header : List Char) : List Char :=
  decodeUtf8 (Base64Url.decodeLoose (trim (header.drop 6)))

/-- The text before the first colon, and the text after it. -/
def cutAtColon (decoded : List Char) : Option (List Char × List Char) :=
  if ':' ∈ decoded then
    some (decoded.takeWhile (fun c => c ≠ ':'), (decoded.dropWhile fun c => c ≠ ':').tail)
  else none

namespace Server

variable (hash : List Char → Secret) (s : Server)

/-- `authenticate` up to the wait for its client; `hash` stands for SHA-256. A percent escape
that does not decode throws through it, as it does in the source. -/
def beginAuthenticateWith (input : AuthenticationInput) :
    Except Thrown (ClientWait × PresentedSecret) :=
  match input.authorizationHeader.filter isBasic with
  | some header =>
      match cutAtColon (decodedHeader header) with
      | none => .error (.oauth authenticationFailed)
      | some (front, back) =>
          match decodeURIComponent front with
          | none => .error .uriError
          | some basicId =>
              if input.bodyClientId.any fun clientId => clientId ≠ String.ofList basicId then
                .error (.oauth ⟨"invalid_request",
                  "client_id does not match the Authorization header.", 400⟩)
              else
                match decodeURIComponent back with
                | none => .error .uriError
                | some secret =>
                    .ok (s.beginResolve (String.ofList basicId), ⟨some (hash secret), true⟩)
  | none =>
      match input.bodyClientId with
      | none => .error (.oauth authenticationFailed)
      | some clientId =>
          .ok (s.beginResolve clientId, ⟨input.bodyClientSecret.map hash, false⟩)

/-- What the wait for a client ends with; a fetch may bring any document. -/
def resolved (document : Except String ClientMetadata) :
    ClientWait → Except OAuthError OAuthClientRow
  | .resolved client => client
  | .fetching clientId => (s.finishFetch clientId document).1

/-- `authenticate` with the store that it finds when it is called, and `later` when a fetch
has its answer. -/
def authenticate (later : Server) (document : Except String ClientMetadata)
    (input : AuthenticationInput) : Except Thrown OAuthClientRow :=
  match s.beginAuthenticateWith hash input with
  | .error thrown => .error thrown
  | .ok (wait, presented) =>
      (finishAuthenticate presented (later.resolved document wait)).mapError .oauth

end Server

/- What a request says -/

/-- The request uses the Basic scheme, and its header reads so around its first colon. -/
def SplitsAs (input : AuthenticationInput) (front back : List Char) : Prop :=
  ∃ header ∈ input.authorizationHeader, isBasic header = true ∧
    decodedHeader header = front ++ ':' :: back ∧ ':' ∉ front

def UsesBasic (input : AuthenticationInput) : Prop :=
  ∃ header ∈ input.authorizationHeader, isBasic header = true

/-- The header spells a client id and a secret. -/
def SpellsPair (input : AuthenticationInput) (clientId : String) (secret : List Char) : Prop :=
  ∃ front back, SplitsAs input front back ∧
    decodeURIComponent front = some clientId.toList ∧ decodeURIComponent back = some secret

/-- The body has no other client id than this one. -/
def Agrees (input : AuthenticationInput) (clientId : String) : Prop :=
  ∀ bodyClientId ∈ input.bodyClientId, bodyClientId = clientId

/-- The request names the client. -/
def Names (input : AuthenticationInput) (clientId : String) : Prop :=
  (∃ secret, SpellsPair input clientId secret) ∧ Agrees input clientId ∨
    ¬UsesBasic input ∧ input.bodyClientId = some clientId

/-- The request presents the client's credential in the way that it is registered with. -/
def Presents (hash : List Char → Secret) (input : AuthenticationInput)
    (client : OAuthClientRow) : Prop :=
  match client.tokenEndpointAuthMethod with
  | .none => ¬UsesBasic input ∧ input.bodyClientSecret = none
  | .clientSecretBasic =>
      ∃ secret, SpellsPair input client.clientId secret ∧
        client.clientSecretHash = some (hash secret)
  | .clientSecretPost =>
      ¬UsesBasic input ∧ ∃ secret ∈ input.bodyClientSecret,
        client.clientSecretHash = some (hash secret)

/-- The header and the body name different clients. -/
def Contradicts (input : AuthenticationInput) : Prop :=
  ∃ front back clientId, SplitsAs input front back ∧
    decodeURIComponent front = some clientId ∧ ¬Agrees input (String.ofList clientId)

/-- A part of the header that is read is no percent-encoded text. -/
def Garbled (input : AuthenticationInput) : Prop :=
  ∃ front back, SplitsAs input front back ∧ (decodeURIComponent front = none ∨
    decodeURIComponent back = none ∧
      ∃ clientId, decodeURIComponent front = some clientId ∧ Agrees input (String.ofList clientId))

/-- The one error that a request can end with, whatever clients there are and whatever
secret it presents. -/
def FailsAs (input : AuthenticationInput) (error : OAuthError) : Prop :=
  Contradicts input ∧ error.error = "invalid_request" ∧ error.status = 400 ∨
    ¬Contradicts input ∧ error.error = "invalid_client" ∧ error.status = 401

/-- A client is let in only as it may be, and a failure tells nothing of the clients. -/
def Exact (hash : List Char → Secret) (input : AuthenticationInput) :
    Except Thrown OAuthClientRow → Prop
  | .ok client => Names input client.clientId ∧ Presents hash input client
  | .error thrown => ∃ error, thrown = .oauth error ∧ FailsAs input error

theorem cutAtColon_append {front : List Char} (back : List Char) (hfront : ':' ∉ front) :
    cutAtColon (front ++ ':' :: back) = some (front, back) := by
  have hkept : ∀ c ∈ front, decide (c ≠ ':') = true := by
    intro c hc
    rw [decide_eq_true_eq]
    rintro rfl
    exact hfront hc
  rw [cutAtColon, if_pos (by simp), List.takeWhile_append_of_pos hkept,
    List.dropWhile_append_of_pos hkept]
  simp

theorem cutAtColon_eq_some_iff {decoded front back : List Char} :
    cutAtColon decoded = some (front, back) ↔ decoded = front ++ ':' :: back ∧ ':' ∉ front := by
  constructor
  · intro hcut
    have hcolon : ':' ∈ decoded := by
      by_contra hnone
      rw [cutAtColon, if_neg hnone] at hcut
      cases hcut
    obtain ⟨before, after, rfl, hbefore⟩ := List.eq_append_cons_of_mem hcolon
    rw [cutAtColon_append after hbefore] at hcut
    obtain ⟨rfl, rfl⟩ := Prod.mk.inj (Option.some.inj hcut)
    exact ⟨rfl, hbefore⟩
  · rintro ⟨rfl, hfront⟩
    exact cutAtColon_append back hfront

theorem SplitsAs.unique {input : AuthenticationInput} {front back front' back' : List Char}
    (hsplit : SplitsAs input front back) (hsplit' : SplitsAs input front' back') :
    front' = front ∧ back' = back := by
  obtain ⟨header, hheader, -, hcut⟩ := hsplit
  obtain ⟨header', hheader', -, hcut'⟩ := hsplit'
  obtain rfl := Option.some.inj (hheader.symm.trans hheader')
  have hsame := (cutAtColon_eq_some_iff.mpr hcut).symm.trans (cutAtColon_eq_some_iff.mpr hcut')
  obtain ⟨rfl, rfl⟩ := Prod.mk.inj (Option.some.inj hsame)
  exact ⟨rfl, rfl⟩

theorem SplitsAs.usesBasic {input : AuthenticationInput} {front back : List Char}
    (hsplit : SplitsAs input front back) : UsesBasic input := by
  obtain ⟨header, hheader, hbasic, -⟩ := hsplit
  exact ⟨header, hheader, hbasic⟩

section Kinds

variable {input : AuthenticationInput}

/-- A request without a pair of names neither contradicts itself nor is garbled. -/
theorem not_contradicts_of_no_split (hno : ∀ front back, ¬SplitsAs input front back) :
    ¬Contradicts input ∧ ¬Garbled input := by
  constructor
  · rintro ⟨front, back, _, hsplit, _⟩
    exact hno front back hsplit
  · rintro ⟨front, back, hsplit, _⟩
    exact hno front back hsplit

theorem contradicts_iff {front back clientId : List Char} (hsplit : SplitsAs input front back)
    (hfront : decodeURIComponent front = some clientId) :
    Contradicts input ↔ ¬Agrees input (String.ofList clientId) := by
  constructor
  · rintro ⟨front', back', clientId', hsplit', hfront', hdiffers⟩
    obtain ⟨rfl, -⟩ := hsplit.unique hsplit'
    obtain rfl := Option.some.inj (hfront.symm.trans hfront')
    exact hdiffers
  · intro hdiffers
    exact ⟨front, back, clientId, hsplit, hfront, hdiffers⟩

theorem garbled_iff {front back : List Char} (hsplit : SplitsAs input front back) :
    Garbled input ↔ decodeURIComponent front = none ∨ decodeURIComponent back = none ∧
      ∃ clientId, decodeURIComponent front = some clientId ∧
        Agrees input (String.ofList clientId) := by
  constructor
  · rintro ⟨front', back', hsplit', hgarbled⟩
    obtain ⟨rfl, rfl⟩ := hsplit.unique hsplit'
    exact hgarbled
  · intro hgarbled
    exact ⟨front, back, hsplit, hgarbled⟩

end Kinds

namespace Server

variable {hash : List Char → Secret} {s : Server}

/-- The credentials that a request is read as, where it is: no basic header, a header that is
not a pair, or a pair whose halves decode. A header whose decoding throws is read as none of
them. -/
inductive Reads (hash : List Char → Secret) (input : AuthenticationInput) :
    ClientCredentials → Prop where
  | absent (hbasic : input.authorizationHeader.filter isBasic = none) :
      Reads hash input
        ⟨.absent, input.bodyClientId, input.bodyClientSecret.map hash⟩
  | malformed (header : List Char) (hheader : input.authorizationHeader.filter isBasic = some header)
      (hcut : cutAtColon (decodedHeader header) = none) :
      Reads hash input
        ⟨.malformed, input.bodyClientId, input.bodyClientSecret.map hash⟩
  | credentials (header front back basicId secret : List Char)
      (hheader : input.authorizationHeader.filter isBasic = some header)
      (hcut : cutAtColon (decodedHeader header) = some (front, back))
      (hfront : decodeURIComponent front = some basicId)
      (hback : decodeURIComponent back = some secret) :
      Reads hash input
        ⟨.credentials (String.ofList basicId) (hash secret), input.bodyClientId,
          input.bodyClientSecret.map hash⟩

/-- The steps of the service start from credentials already read off a request; a request whose
header and body read as such credentials starts the same step, with the same outcome. -/
theorem beginAuthenticateWith_eq {input : AuthenticationInput} {credentials : ClientCredentials}
    (hreads : Reads hash input credentials) :
    s.beginAuthenticateWith hash input =
      (s.beginAuthenticate credentials).mapError Thrown.oauth := by
  cases hreads with
  | absent hbasic =>
      rw [beginAuthenticateWith, hbasic, beginAuthenticate]
      dsimp only
      cases input.bodyClientId with
      | none => rfl
      | some clientId => rfl
  | malformed header hheader hcut =>
      rw [beginAuthenticateWith, hheader, beginAuthenticate]
      dsimp only
      rw [hcut]
      rfl
  | credentials header front back basicId secret hheader hcut hfront hback =>
      rw [beginAuthenticateWith, hheader, beginAuthenticate]
      dsimp only
      rw [hcut]
      dsimp only
      rw [hfront]
      dsimp only
      split
      · rfl
      · rw [hback]
        rfl

/-- How an `authenticate` begins: it throws at a garbled pair, refuses, or goes on to resolve
the client that the header or the body names, holding on to the secret that was presented. -/
inductive Begins (hash : List Char → Secret) (s : Server) (input : AuthenticationInput) :
    Except Thrown (ClientWait × PresentedSecret) → Prop where
  | garbled (hgarbled : Garbled input) : Begins hash s input (.error .uriError)
  | refused (error : OAuthError) (hclear : ¬Garbled input) (hfails : FailsAs input error) :
      Begins hash s input (.error (.oauth error))
  | basic (clientId : String) (secret : List Char) (hclear : ¬Garbled input)
      (hpair : SpellsPair input clientId secret) (hagrees : Agrees input clientId) :
      Begins hash s input (.ok (s.beginResolve clientId, ⟨some (hash secret), true⟩))
  | body (clientId : String) (hbasic : ¬UsesBasic input)
      (hbody : input.bodyClientId = some clientId) :
      Begins hash s input
        (.ok (s.beginResolve clientId, ⟨input.bodyClientSecret.map hash, false⟩))

theorem failsAs_authenticationFailed {input : AuthenticationInput}
    (hconsistent : ¬Contradicts input) : FailsAs input authenticationFailed :=
  Or.inr ⟨hconsistent, rfl, rfl⟩

theorem beginAuthenticateWith_begins (input : AuthenticationInput) :
    Begins hash s input (s.beginAuthenticateWith hash input) := by
  rw [beginAuthenticateWith]
  cases hheader : input.authorizationHeader.filter isBasic with
  | none =>
      have hbasic : ¬UsesBasic input := by
        rintro ⟨header, hmem, hbasic⟩
        rw [Option.mem_def.mp hmem, Option.filter_some_pos hbasic] at hheader
        cases hheader
      have hclear := not_contradicts_of_no_split fun front back hsplit =>
        hbasic hsplit.usesBasic
      cases hbody : input.bodyClientId with
      | none => exact .refused _ hclear.2 (failsAs_authenticationFailed hclear.1)
      | some clientId => exact .body clientId hbasic hbody
  | some header =>
      obtain ⟨hmem, hbasic⟩ := Option.filter_eq_some_iff.mp hheader
      dsimp only
      cases hcut : cutAtColon (decodedHeader header) with
      | none =>
          have hclear := @not_contradicts_of_no_split input (by
            rintro front back ⟨header', hheader', -, hsplit⟩
            obtain rfl := Option.some.inj (hmem.symm.trans hheader')
            rw [cutAtColon_eq_some_iff.mpr hsplit] at hcut
            cases hcut)
          exact .refused _ hclear.2 (failsAs_authenticationFailed hclear.1)
      | some parts =>
          obtain ⟨front, back⟩ := parts
          have hsplit : SplitsAs input front back :=
            ⟨header, hmem, hbasic, cutAtColon_eq_some_iff.mp hcut⟩
          dsimp only
          cases hfront : decodeURIComponent front with
          | none => exact .garbled ((garbled_iff hsplit).mpr (Or.inl hfront))
          | some basicId =>
              have hcontradicts := contradicts_iff hsplit hfront
              have hdiffers : (input.bodyClientId.any fun clientId =>
                  decide (clientId ≠ String.ofList basicId)) = true ↔
                    ¬Agrees input (String.ofList basicId) := by
                simp [Agrees, Option.any_eq_true]
              dsimp only
              split
              · rename_i hother
                have hother := hdiffers.mp hother
                refine .refused _ ?_ (Or.inl ⟨hcontradicts.mpr hother, rfl, rfl⟩)
                rw [garbled_iff hsplit, hfront]
                rintro (hnone | ⟨-, clientId, hsome, hagrees⟩)
                · cases hnone
                · obtain rfl := Option.some.inj hsome
                  exact hother hagrees
              · rename_i hsame
                have hagrees : Agrees input (String.ofList basicId) :=
                  not_not.mp fun hother => hsame (hdiffers.mpr hother)
                cases hback : decodeURIComponent back with
                | none =>
                    exact .garbled ((garbled_iff hsplit).mpr
                      (Or.inr ⟨hback, basicId, hfront, hagrees⟩))
                | some secret =>
                    refine .basic (String.ofList basicId) secret ?_
                      ⟨front, back, hsplit, ?_, hback⟩ hagrees
                    · rw [garbled_iff hsplit, hfront, hback]
                      rintro (hnone | ⟨hnone, -⟩)
                      · cases hnone
                      · cases hnone
                    · rw [hfront, String.toList_ofList]

/- The client that is waited for -/

theorem beginResolve_clientId {clientId : String} {client : OAuthClientRow}
    (hresolve : s.beginResolve clientId = .resolved (.ok client)) : client.clientId = clientId := by
  rw [beginResolve] at hresolve
  split at hresolve
  · cases hresolve
  split at hresolve
  · cases hfound : s.findClient clientId with
    | none => simp [hfound] at hresolve
    | some found =>
        simp only [hfound] at hresolve
        split at hresolve
        · obtain rfl := Except.ok.inj (ClientWait.resolved.inj hresolve)
          exact key_of_lookup hfound
        · cases hresolve
  split at hresolve
  · cases hresolve
  · cases hfound : s.findClient clientId with
    | none => simp [hfound] at hresolve
    | some cached =>
        simp only [hfound] at hresolve
        split at hresolve
        · obtain rfl := Except.ok.inj (ClientWait.resolved.inj hresolve)
          exact key_of_lookup hfound
        · cases hresolve

theorem beginResolve_fetching {clientId fetched : String}
    (hresolve : s.beginResolve clientId = .fetching fetched) : fetched = clientId := by
  rw [beginResolve] at hresolve
  split at hresolve
  · cases hresolve
  split at hresolve
  · cases hfound : s.findClient clientId with
    | none => simp [hfound] at hresolve
    | some found =>
        simp only [hfound] at hresolve
        split at hresolve
        · cases hresolve
        · cases hresolve
  split at hresolve
  · cases hresolve
  · cases hfound : s.findClient clientId with
    | none =>
        simp only [hfound, ClientWait.fetching.injEq] at hresolve
        exact hresolve.symm
    | some cached =>
        simp only [hfound] at hresolve
        split at hresolve
        · cases hresolve
        · exact (ClientWait.fetching.inj hresolve).symm

theorem finishFetch_clientId {clientId : String} {document : Except String ClientMetadata}
    {client : OAuthClientRow} (hfetch : (s.finishFetch clientId document).1 = .ok client) :
    client.clientId = clientId := by
  cases document with
  | error reason => cases hfetch
  | ok document =>
      simp only [finishFetch] at hfetch
      split at hfetch
      · cases hfetch
      · split at hfetch
        · cases hfetch
        · rename_i found hfound
          obtain rfl := Except.ok.inj hfetch
          exact key_of_lookup hfound

/-- The client that is found is the one that was named. -/
theorem resolved_clientId {later : Server} {document : Except String ClientMetadata}
    {clientId : String} {client : OAuthClientRow}
    (hresolved : later.resolved document (s.beginResolve clientId) = .ok client) :
    client.clientId = clientId := by
  cases hwait : s.beginResolve clientId with
  | resolved answer =>
      rw [hwait, resolved] at hresolved
      rw [hresolved] at hwait
      exact beginResolve_clientId hwait
  | fetching fetched =>
      rw [hwait, resolved] at hresolved
      rw [finishFetch_clientId hresolved, beginResolve_fetching hwait]

/-- The secret is the client's, and was sent in this way. -/
def Matches (presented : PresentedSecret) (client : OAuthClientRow) (viaBasic : Bool) : Prop :=
  presented.viaBasic = viaBasic ∧ ∃ secret, presented.secret = some secret ∧
    client.clientSecretHash = some secret

/-- A credential is accepted in the way that its client is registered with. -/
def Accepts (presented : PresentedSecret) (client : OAuthClientRow) : Prop :=
  match client.tokenEndpointAuthMethod with
  | .none => presented.secret = none
  | .clientSecretBasic => Matches presented client true
  | .clientSecretPost => Matches presented client false

theorem matches_of_passed {presented : PresentedSecret} {client : OAuthClientRow}
    {viaBasic : Bool} (hpresented : ¬(presented.secret = none ∨ client.clientSecretHash = none ∨
      presented.viaBasic ≠ viaBasic)) (hsame : ¬presented.secret ≠ client.clientSecretHash) :
    Matches presented client viaBasic := by
  simp only [not_or, not_not] at hpresented hsame
  obtain ⟨hsome, -, hvia⟩ := hpresented
  obtain ⟨secret, hsecret⟩ := Option.ne_none_iff_exists'.mp hsome
  exact ⟨hvia, secret, hsecret, by rw [← hsame, hsecret]⟩

theorem finishAuthenticate_spec (presented : PresentedSecret)
    (client : Except OAuthError OAuthClientRow) :
    finishAuthenticate presented client = .error authenticationFailed ∨
      ∃ row, client = .ok row ∧ finishAuthenticate presented client = .ok row ∧
        Accepts presented row := by
  cases client with
  | error error => exact Or.inl rfl
  | ok row =>
      simp only [finishAuthenticate, Accepts]
      cases hmethod : row.tokenEndpointAuthMethod with
      | none =>
          dsimp only
          split
          · exact Or.inl rfl
          · rename_i hsecret
            exact Or.inr ⟨row, rfl, rfl, by rw [hmethod]; exact not_not.mp hsecret⟩
      | clientSecretBasic =>
          dsimp only
          split
          · exact Or.inl rfl
          · rename_i hpresented
            split
            · exact Or.inl rfl
            · rename_i hsame
              refine Or.inr ⟨row, rfl, rfl, ?_⟩
              rw [hmethod]
              exact matches_of_passed hpresented hsame
      | clientSecretPost =>
          dsimp only
          split
          · exact Or.inl rfl
          · rename_i hpresented
            split
            · exact Or.inl rfl
            · rename_i hsame
              refine Or.inr ⟨row, rfl, rfl, ?_⟩
              rw [hmethod]
              exact matches_of_passed hpresented hsame

/-- A client that is accepted is exactly let in, and the failure is the uniform one. -/
theorem exact_finishAuthenticate {input : AuthenticationInput} {presented : PresentedSecret}
    {client : Except OAuthError OAuthClientRow} (hconsistent : ¬Contradicts input)
    (haccepts : ∀ row, client = .ok row → Accepts presented row →
      Names input row.clientId ∧ Presents hash input row) :
    Exact hash input ((finishAuthenticate presented client).mapError .oauth) := by
  rcases finishAuthenticate_spec presented client with hfailed | ⟨row, hrow, hpassed, haccepted⟩
  · rw [hfailed]
    exact ⟨authenticationFailed, rfl, failsAs_authenticationFailed hconsistent⟩
  · rw [hpassed]
    exact haccepts row hrow haccepted

/-- What the header presents is a secret of the Basic scheme. -/
theorem presents_of_basic {input : AuthenticationInput} {client : OAuthClientRow}
    {secret : List Char} (hpair : SpellsPair input client.clientId secret)
    (haccepted : Accepts ⟨some (hash secret), true⟩ client) : Presents hash input client := by
  rw [Accepts] at haccepted
  rw [Presents]
  cases hmethod : client.tokenEndpointAuthMethod with
  | none =>
      rw [hmethod] at haccepted
      cases haccepted
  | clientSecretBasic =>
      rw [hmethod] at haccepted
      obtain ⟨-, presented, hpresented, hstored⟩ := haccepted
      obtain rfl := Option.some.inj hpresented
      exact ⟨secret, hpair, hstored⟩
  | clientSecretPost =>
      rw [hmethod] at haccepted
      cases haccepted.1

theorem presents_of_body {input : AuthenticationInput} {client : OAuthClientRow}
    (hbasic : ¬UsesBasic input)
    (haccepted : Accepts ⟨input.bodyClientSecret.map hash, false⟩ client) :
    Presents hash input client := by
  rw [Accepts] at haccepted
  rw [Presents]
  cases hmethod : client.tokenEndpointAuthMethod with
  | none =>
      rw [hmethod] at haccepted
      exact ⟨hbasic, Option.map_eq_none_iff.mp haccepted⟩
  | clientSecretBasic =>
      rw [hmethod] at haccepted
      cases haccepted.1
  | clientSecretPost =>
      rw [hmethod] at haccepted
      obtain ⟨-, presented, hpresented, hstored⟩ := haccepted
      obtain ⟨secret, hsecret, rfl⟩ := Option.map_eq_some_iff.mp hpresented
      exact ⟨hbasic, secret, hsecret, hstored⟩

/-- A client is let in only as it may be, and every other request fails in one way, but for
those with a header that is no percent-encoded text, which throw an error that nothing on the
way answers as a failed authentication. -/
theorem authenticate_exact_iff (hash : List Char → Secret) (s later : Server)
    (document : Except String ClientMetadata) (input : AuthenticationInput) :
    Exact hash input (s.authenticate hash later document input) ↔ ¬Garbled input := by
  rw [authenticate]
  generalize hbegin : s.beginAuthenticateWith hash input = begun
  have hbegins : Begins hash s input begun := hbegin ▸ beginAuthenticateWith_begins input
  cases hbegins with
  | garbled hgarbled =>
      refine iff_of_false ?_ (not_not_intro hgarbled)
      rintro ⟨error, huri, -⟩
      cases huri
  | refused error hclear hfails => exact iff_of_true ⟨error, rfl, hfails⟩ hclear
  | basic clientId secret hclear hpair hagrees =>
      refine iff_of_true (exact_finishAuthenticate ?_ ?_) hclear
      · obtain ⟨front, back, hsplit, hfront, -⟩ := hpair
        rw [contradicts_iff hsplit hfront, String.ofList_toList]
        exact not_not_intro hagrees
      · intro row hrow haccepted
        obtain rfl := resolved_clientId hrow
        exact ⟨Or.inl ⟨⟨secret, hpair⟩, hagrees⟩, presents_of_basic hpair haccepted⟩
  | body clientId hbasic hbody =>
      have hclear := not_contradicts_of_no_split fun front back hsplit =>
        hbasic hsplit.usesBasic
      refine iff_of_true (exact_finishAuthenticate hclear.1 ?_) hclear.2
      intro row hrow haccepted
      obtain rfl := resolved_clientId hrow
      exact ⟨Or.inr ⟨hbasic, hbody⟩, presents_of_body hbasic haccepted⟩

end Server

namespace BadPercent

open Server

/-- The header spells `%:x`. -/
def input : AuthenticationInput := ⟨some "Basic JTp4".toList, none, none⟩

def unregistered : Server := (System.initial OneConnection.settings (some "k1") 1000).server

/-- A header whose identifier is a bare percent sign: decoding it throws, and the endpoint
answers with an internal error. -/
theorem uriError_thrown : ¬∀ (hash : List Char → Secret) (s later : Server)
    (document : Except String ClientMetadata) (input : AuthenticationInput),
    Exact hash input (s.authenticate hash later document input) := by
  intro hclaim
  have hthrown : unregistered.authenticate (fun _ => 0) unregistered (.error "") input =
      .error .uriError := by
    decide
  have hexact := hclaim (fun _ => 0) unregistered unregistered (.error "") input
  rw [hthrown] at hexact
  obtain ⟨error, huri, -⟩ := hexact
  cases huri

end BadPercent

end Mcp

end MailPanel
