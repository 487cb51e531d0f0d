import Doorito.Frontend.Redirects

/-! The detour over the login page: an anonymous visitor asks for a page, is sent to the login
page, submits its form as it stands and is redirected. The address travels through the query of
the redirect, the action of the form and the query that the browser makes of it
(`frontend/decorators.py`, `frontend/templates/frontend/auth/login.html`). -/

set_option autoImplicit false

namespace Doorito.Frontend

open Foundation Common Accounts FormData

/-- The default of `DATA_UPLOAD_MAX_NUMBER_FIELDS`, which the settings leave alone. -/
def maxNumberFields : Nat := 1000

/-- What Django reads of a request's query and body. -/
def readRequest (method : Method) (query body : Text) : Except ViewError PageRequest :=
  match parseQsl maxNumberFields query, parseQsl maxNumberFields body with
  | some query, some body => .ok { method, query, body }
  | _, _ => .error .tooManyFieldsSent

/-- The action of the form in `login.html`, after the browser has undone the HTML escaping. -/
def formAction (next : Text) : Text :=
  if next = [] then loginPath else loginPath ++ "?next=".toList ++ next

/-- What the visitor adds to the form. -/
structure Credentials where
  csrfToken : Text
  username : Text
  password : Text
  rememberMe : Bool

/-- The fields of the form in `login.html`, with `next` in the hidden one. -/
def formFields (next : Text) (credentials : Credentials) : Fields :=
  [("csrfmiddlewaretoken".toList, credentials.csrfToken), ("next".toList, next),
    ("username".toList, credentials.username), ("password".toList, credentials.password)] ++
    if credentials.rememberMe then [("remember_me".toList, "on".toList)] else []

/-- What a browser leaves as it is in form data. -/
def formPlain (char : Char) : Bool := char.isAlphanum || "*-._".toList.contains char

/-- The browser goes to the address that it was redirected to. -/
def visitLogin (site : Site) (rules : AuthRules) (table : UserTable) (location : Text) :
    Except ViewError Answer :=
  match readRequest .get (Address.sentQuery location) [] with
  | .error error => .error error
  | .ok request => (loginView site rules request table ⟨none, none⟩).2

/-- The browser submits the form of the page that shows `next`. -/
def submitLogin (site : Site) (rules : AuthRules) (table : UserTable) (credentials : Credentials)
    (next : Text) : Except ViewError Answer :=
  match readRequest .post (Address.sentQuery (formAction next))
      (urlencode formPlain (formFields next credentials)) with
  | .error error => .error error
  | .ok request => (loginView site rules request table ⟨none, none⟩).2

def loginDetour (site : Site) (rules : AuthRules) (table : UserTable) (credentials : Credentials)
    (request : RequestPath) (view : Except ViewError Answer) : Except ViewError Answer :=
  match frontendLoginRequired site none request view with
  | .ok (.redirect location) =>
      match visitLogin site rules table location with
      | .ok (.page next) => submitLogin site rules table credentials next
      | answer => answer
  | answer => answer

/-! ## The full path -/

theorem pathPlain_uriPlain (char : Char) (plain : pathPlain char = true) :
    uriPlain char = true := by
  rcases (Bool.or_eq_true ..).mp plain with safe | mark
  · exact uriPlain_of_alwaysSafe char safe
  · have all : "/:@&+$,-_.!~*'()".toList.all uriPlain = true := rfl
    exact List.all_eq_true.mp all char (List.contains_iff_mem.mp mark)

/-- A path begins with a slash, and an address is not quoted further. -/
structure IsFullPath (full : Text) : Prop where
  rooted : ∃ rest, full = '/' :: rest
  plain : ∀ char ∈ full, uriPlain char = true

theorem isFullPath_getFullPath (request : RequestPath) : IsFullPath request.getFullPath where
  rooted := by
    obtain ⟨rest, path⟩ := List.head?_eq_some_iff.mp request.rooted
    rw [RequestPath.getFullPath, path, escapeUriPath, Percent.quote_cons_of_plain rfl,
      List.cons_append]
    exact ⟨_, rfl⟩
  plain := by
    have keeps := keepsFields_uriPlain.toKeepsEscapes
    intro char member
    rcases List.mem_append.mp member with path | query
    · rcases Percent.mem_quote path with kept | percent | digit
      · exact pathPlain_uriPlain char kept
      · exact percent ▸ keeps.percent
      · exact keeps.digits char digit
    · split_ifs at query
      · cases query
      · rcases List.mem_cons.mp query with mark | listed
        · exact mark ▸ rfl
        · exact Percent.plain_of_mem_quote keeps listed

section Chain

variable {site : Site} {rules : AuthRules} {table : UserTable} {credentials : Credentials}
  {full : Text}

theorem IsFullPath.ne_nil (isFull : IsFullPath full) : full ≠ [] := by
  obtain ⟨rest, shape⟩ := isFull.rooted
  rw [shape]
  exact List.cons_ne_nil _ _

theorem IsFullPath.iriToUri (isFull : IsFullPath full) : iriToUri full = full :=
  Percent.quote_of_plain isFull.plain

/-! ## To the login page -/

theorem escapesMarks_alwaysSafe : EscapesMarks alwaysSafe := ⟨rfl, rfl, rfl, rfl⟩

theorem keepsFields_queryPlain : KeepsFields Address.queryPlain where
  percent := rfl
  plus := rfl
  digits char digit := by
    have marks : "\"#<>'".toList.all (fun mark => (Percent.hexValue? mark).isNone) = true := rfl
    have free : "\"#<>'".toList.contains char = false := by
      rw [← Bool.not_eq_true, List.contains_iff_mem]
      intro listed
      exact digit (Option.isNone_iff_eq_none.mp (List.all_eq_true.mp marks char listed))
    rw [Address.queryPlain, free, Bool.not_false, Bool.and_true, Bool.and_eq_true,
      decide_eq_true_iff, decide_eq_true_iff]
    rcases Percent.hexValue?_range digit with number | upper | lower
    · exact ⟨UInt32.le_trans (by decide) number.1, UInt32.le_trans number.2 (by decide)⟩
    · exact ⟨UInt32.le_trans (by decide) upper.1, UInt32.le_trans upper.2 (by decide)⟩
    · exact ⟨UInt32.le_trans (by decide) lower.1, UInt32.le_trans lower.2 (by decide)⟩
  ampersand := rfl
  equals := rfl

theorem mem_quotePlus_alwaysSafe {char : Char} {text : Text}
    (member : char ∈ Percent.quotePlus alwaysSafe text) : uriPlain char = true ∧ char ≠ '#' := by
  have keeps := keepsFields_uriPlain.toKeepsEscapes
  rcases Percent.mem_quotePlus member with plus | safe | percent | digit
  · exact plus ▸ ⟨rfl, by decide⟩
  · refine ⟨uriPlain_of_alwaysSafe char safe, ?_⟩
    rintro rfl
    cases safe
  · exact percent ▸ ⟨rfl, by decide⟩
  · refine ⟨keeps.digits char digit, ?_⟩
    rintro rfl
    exact digit rfl

theorem mem_loginAddress {char : Char} (member : char ∈ loginAddress full) :
    uriPlain char = true ∧ char ≠ '#' := by
  have path : loginPath.all uriPlain = true ∧ '#' ∉ loginPath := by decide
  have single : urlencode alwaysSafe [("next".toList, full)] =
      writeField alwaysSafe ("next".toList, full) := List.intercalate_singleton
  rcases List.mem_append.mp member with front | rest
  · refine ⟨List.all_eq_true.mp path.1 char front, ?_⟩
    rintro rfl
    exact path.2 front
  · rcases List.mem_cons.mp rest with mark | field
    · exact mark ▸ ⟨rfl, by decide⟩
    · rw [single] at field
      rcases List.mem_append.mp field with name | rest
      · exact mem_quotePlus_alwaysSafe name
      · rcases List.mem_cons.mp rest with mark | value
        · exact mark ▸ ⟨rfl, by decide⟩
        · exact mem_quotePlus_alwaysSafe value

theorem sentQuery_loginAddress (full : Text) :
    Address.sentQuery (loginAddress full) =
      Percent.quote Address.queryPlain (urlencode alwaysSafe [("next".toList, full)]) := by
  have noFragment : '#' ∉ loginAddress full := fun member => (mem_loginAddress member).2 rfl
  have noQuestion : '?' ∉ loginPath := by decide
  rw [Address.sentQuery, Address.withoutFragment_of_not_mem noFragment, loginAddress,
    Address.queryOf_of_question noQuestion]

theorem visitLogin_loginAddress (full : Text) :
    visitLogin site rules table (loginAddress full) = .ok (.page full) := by
  have few : 1 ≤ maxNumberFields := by decide
  have query : parseQsl maxNumberFields (Address.sentQuery (loginAddress full)) =
      some [("next".toList, full)] := by
    rw [sentQuery_loginAddress, parseQsl_quote keepsFields_queryPlain,
      parseQsl_urlencode escapesMarks_alwaysSafe few]
  have body : parseQsl maxNumberFields [] = some [] := rfl
  simp only [visitLogin, readRequest, query, body]
  rfl

theorem redirect_loginAddress (full : Text) :
    redirect site (loginAddress full) =
      if site.accepts (loginAddress full) then .ok (.redirect (loginAddress full))
      else .error (site.refusal (loginAddress full)) := by
  have slash : '/' ∈ loginAddress full := List.mem_append_left _ (by decide)
  rw [redirect_of_mark (.inl slash), Frontend.iriToUri,
    Percent.quote_of_plain fun _ member => (mem_loginAddress member).1]

/-! ## From the login page -/

theorem escapesMarks_formPlain : EscapesMarks formPlain := ⟨rfl, rfl, rfl, rfl⟩

theorem sentQuery_formAction (given : full ≠ []) :
    Address.sentQuery (formAction full) =
      Percent.quote Address.queryPlain ("next=".toList ++ Address.withoutFragment full) := by
  have noFragment : '#' ∉ loginPath ++ "?next=".toList := by decide
  have noQuestion : '?' ∉ loginPath := by decide
  have mark : "?next=".toList = '?' :: "next=".toList := rfl
  rw [Address.sentQuery, formAction, if_neg given, Address.withoutFragment_append noFragment,
    List.append_assoc, mark, List.cons_append, Address.queryOf_of_question noQuestion]

theorem parse_formFields (next : Text) (credentials : Credentials) :
    parseQsl maxNumberFields (urlencode formPlain (formFields next credentials)) =
      some (formFields next credentials) := by
  refine parseQsl_urlencode escapesMarks_formPlain ?_
  have few : 5 ≤ maxNumberFields := by decide
  rw [formFields]
  split_ifs <;> simp only [List.length_append, List.length_cons, List.length_nil] <;> omega

/-- The query of the action as it is read. -/
def actionFields (full : Text) : Fields :=
  readFields ("next=".toList ++ Address.withoutFragment full)

/-- The value that the views follow: the one in the action, or else the hidden one. -/
def usedNext (full : Text) : Text :=
  ((get (actionFields full) "next".toList).filter (· ≠ [])).getD full

theorem get_formFields (next : Text) (credentials : Credentials) :
    get (formFields next credentials) "next".toList = some next ∧
      get (formFields next credentials) "username".toList = some credentials.username ∧
        get (formFields next credentials) "password".toList = some credentials.password := by
  rw [formFields]
  cases credentials.rememberMe <;> exact ⟨rfl, rfl, rfl⟩

theorem parse_formAction (given : full ≠ []) :
    parseQsl maxNumberFields (Address.sentQuery (formAction full)) =
      if (Address.withoutFragment full).count '&' < maxNumberFields then some (actionFields full)
      else none := by
  have named : "next=".toList ++ Address.withoutFragment full ≠ [] := by
    intro empty
    cases empty
  have count : ("next=".toList ++ Address.withoutFragment full).count '&' =
      (Address.withoutFragment full).count '&' := by
    rw [List.count_append]
    exact Nat.zero_add _
  rw [sentQuery_formAction given, parseQsl_quote keepsFields_queryPlain, parseQsl, if_neg named,
    count]
  split_ifs
  · omega
  · rfl
  · rfl
  · omega

theorem submitLogin_eq (valid : ∃ user, login rules (String.ofList credentials.username)
      (String.ofList credentials.password) table = .ok user) (given : full ≠ []) :
    submitLogin site rules table credentials full =
      if (Address.withoutFragment full).count '&' < maxNumberFields then
        redirect site (usedNext full)
      else .error .tooManyFieldsSent := by
  rw [submitLogin, readRequest, parse_formAction given, parse_formFields]
  split_ifs
  · dsimp only
    obtain ⟨hidden, username, password⟩ := get_formFields full credentials
    have succeeds : LoginSucceeds rules
        { method := .post, query := actionFields full, body := formFields full credentials }
        table ⟨none, none⟩ := by
      refine ⟨rfl, rfl, ?_⟩
      simp only [PageRequest.posted, username, password, Option.getD_some]
      exact valid
    have used : PageRequest.nextUrl
        { method := .post, query := actionFields full, body := formFields full credentials } =
          some (usedNext full) := by
      have kept : (some full).filter (· ≠ []) = some full := by
        rw [Option.filter_some, if_pos (decide_eq_true given)]
      simp only [PageRequest.nextUrl, hidden, kept, usedNext]
      cases (get (actionFields full) "next".toList).filter (· ≠ []) <;> rfl
    simp only [loginView_of_success succeeds, redirectNext, used]
  · rfl

/-! ## The value that is followed -/

open Percent (unquotePlus HasEscape Part Cuts)

theorem cuts_slash : Cuts '/' := ⟨by decide, by decide, by decide⟩

theorem cuts_hash : Cuts '#' := ⟨by decide, by decide, by decide⟩

theorem get_next_single {text : Text} (single : '&' ∉ text) :
    get (readFields ("next=".toList ++ text)) "next".toList = some (unquotePlus text) := by
  have free : '&' ∉ "next=".toList ++ text := by
    intro member
    exact (List.mem_append.mp member).elim (by decide) single
  have split : "next=".toList ++ text = "next".toList ++ '=' :: text := rfl
  have given : "next=".toList ++ text ≠ [] := by
    intro empty
    cases empty
  have noEquals : '=' ∉ "next".toList := by decide
  have name : unquotePlus "next".toList = "next".toList := by decide
  rw [readFields_of_not_mem free, if_neg given, split, readField_of_equals noEquals, name,
    get_singleton, if_pos rfl]

/-- The last `next` after the first ampersand goes before the address itself. -/
theorem get_next_more {first : Text} (free : '&' ∉ first) (rest : Text) :
    get (readFields ("next=".toList ++ (first ++ '&' :: rest))) "next".toList =
      (get (readFields rest) "next".toList).or (some (unquotePlus first)) := by
  rw [← List.append_assoc, readFields_append, get_append, get_next_single free]

theorem withoutFragment_eq (full : Text) :
    full = Address.withoutFragment full ∨
      ∃ fragment, full = Address.withoutFragment full ++ '#' :: fragment := by
  by_cases member : '#' ∈ full
  · obtain ⟨front, fragment, shape, free⟩ := List.eq_append_cons_of_mem member
    have cut := Address.withoutFragment_of_hash free fragment
    rw [← shape] at cut
    exact .inr ⟨fragment, by rw [cut]; exact shape⟩
  · exact .inl (Address.withoutFragment_of_not_mem member).symm

/-- The address is what `iri_to_uri` makes of a text that is read as it stands, so that reading
it once too often is undone when it is written. -/
def FollowsAction (site : Site) (full : Text) : Prop :=
  ∃ plain, iriToUri plain = full ∧ ¬ HasEscape plain ∧ '+' ∉ plain ∧ '&' ∉ plain ∧ '#' ∉ plain ∧
    site.accepts plain = true

/-- The query of the address has an empty `next`, so that the hidden field counts. -/
def FollowsHidden (site : Site) (full : Text) : Prop :=
  ∃ first rest, Address.withoutFragment full = first ++ '&' :: rest ∧ '&' ∉ first ∧
    get (readFields rest) "next".toList = some [] ∧
      (Address.withoutFragment full).count '&' < maxNumberFields ∧ site.accepts full = true

/-- An ampersand or the beginning of a fragment. -/
def isDelimiter (char : Char) : Bool := char = '&' || char = '#'

theorem cuts_of_isDelimiter {char : Char} (delimiter : isDelimiter char = true) : Cuts char := by
  rcases (Bool.or_eq_true ..).mp delimiter with ampersand | hash
  · exact of_decide_eq_true ampersand ▸ cuts_ampersand
  · exact of_decide_eq_true hash ▸ cuts_hash

/-- The address falls into two sides of a delimiter, and the text is a part of one of them. -/
def PartBeside (part full : Text) : Prop :=
  ∃ front delimiter back, full = front ++ delimiter :: back ∧ isDelimiter delimiter = true ∧
    (Part part front ∨ Part part back)

theorem iriToUri_part_ne {part : Text} (beside : PartBeside part full) :
    iriToUri (unquotePlus part) ≠ full := by
  obtain ⟨front, delimiter, back, shape, marked, inside⟩ := beside
  have fewer : ∀ times, (unquotePlus^[times] part).countP isDelimiter <
      (unquotePlus^[times] full).countP isDelimiter := by
    intro times
    rw [shape, Percent.iterate_unquotePlus_append_cut (cuts_of_isDelimiter marked),
      List.countP_append, List.countP_cons, if_pos marked]
    rcases inside with inFront | inBack
    · have bound := inFront.countP_le isDelimiter times
      omega
    · have bound := inBack.countP_le isDelimiter times
      omega
  intro written
  have read := Percent.unquotePlus_quote keepsFields_uriPlain.toKeepsEscapes (unquotePlus part)
  rw [← Frontend.iriToUri, written] at read
  exact Percent.unquotePlus_part_ne isDelimiter fewer read.symm

/-- A fragment after the two sides of an ampersand belongs to the second. -/
theorem partBeside_of_ampersand {part first rest : Text}
    (shape : Address.withoutFragment full = first ++ '&' :: rest)
    (inside : Part part first ∨ Part part rest) : PartBeside part full := by
  rcases withoutFragment_eq full with whole | ⟨fragment, whole⟩
  · exact ⟨first, '&', rest, whole.trans shape, rfl, inside⟩
  · rw [shape, List.append_assoc, List.cons_append] at whole
    exact ⟨first, '&', _, whole, rfl, inside.imp_right fun inRest =>
      .before cuts_hash inRest fragment⟩

/-- What is read as `next` in the action is a part of the address beside a delimiter. -/
theorem partBeside_of_get {value : Text} (delimited : '&' ∈ full ∨ '#' ∈ full)
    (found : get (actionFields full) "next".toList = some value) (given : value ≠ []) :
    ∃ part, PartBeside part full ∧ value = unquotePlus part := by
  by_cases member : '&' ∈ Address.withoutFragment full
  · obtain ⟨first, rest, shape, free⟩ := List.eq_append_cons_of_mem member
    rw [actionFields, shape, get_next_more free] at found
    cases later : get (readFields rest) "next".toList with
    | none =>
        rw [later, Option.none_or, Option.some.injEq] at found
        exact ⟨first, partBeside_of_ampersand shape (.inl .whole), found.symm⟩
    | some last =>
        rw [later, Option.some_or, Option.some.injEq] at found
        rw [found] at later
        obtain ⟨part, inside, read⟩ := part_of_mem_readFields (mem_of_get later) given
        exact ⟨part, partBeside_of_ampersand shape (.inr inside), read⟩
  · rw [actionFields, get_next_single member, Option.some.injEq] at found
    rcases withoutFragment_eq full with whole | ⟨fragment, whole⟩
    · rw [← whole] at member
      have inside := delimited.resolve_left member
      rw [whole] at inside
      exact absurd inside (Address.hash_not_mem_withoutFragment full)
    · exact ⟨_, ⟨_, '#', fragment, whole, rfl, .inl .whole⟩, found.symm⟩

theorem usedNext_of_empty (found : get (actionFields full) "next".toList = some []) :
    usedNext full = full := by
  rw [usedNext, found]
  rfl

theorem usedNext_of_given {value : Text}
    (found : get (actionFields full) "next".toList = some value) (given : value ≠ []) :
    usedNext full = value := by
  rw [usedNext, found, Option.filter_some, if_pos (decide_eq_true given)]
  rfl

/-- Without a delimiter the address is read once more as a whole. -/
theorem usedNext_of_free (given : full ≠ []) (noAmpersand : '&' ∉ full) (noHash : '#' ∉ full) :
    usedNext full = unquotePlus full := by
  have whole := Address.withoutFragment_of_not_mem noHash
  refine usedNext_of_given ?_ fun empty => given (Percent.unquotePlus_eq_nil_iff.mp empty)
  rw [actionFields, whole, get_next_single noAmpersand]

theorem slash_mem_unquotePlus (isFull : IsFullPath full) : '/' ∈ unquotePlus full := by
  obtain ⟨rest, shape⟩ := isFull.rooted
  have read := Percent.unquotePlus_append_cut cuts_slash [] rest
  rw [List.nil_append, ← shape] at read
  rw [read]
  exact List.mem_append_right _ List.mem_cons_self

theorem slash_mem (isFull : IsFullPath full) : '/' ∈ full := by
  obtain ⟨rest, shape⟩ := isFull.rooted
  rw [shape]
  exact List.mem_cons_self

/-- What is read as `next` in the action of a delimited address does not lead to it. -/
theorem redirect_given_ne {value : Text} (delimited : '&' ∈ full ∨ '#' ∈ full)
    (found : get (actionFields full) "next".toList = some value) (given : value ≠ []) :
    redirect site (usedNext full) ≠ .ok (.redirect full) := by
  intro returned
  rw [usedNext_of_given found given] at returned
  rcases redirect_eq_ok_iff.mp returned with named | ⟨_, _, written⟩
  · have plain := (site.routes value full named).1
    rcases delimited with ampersand | hash
    · exact absurd (plain '&' ampersand) (by decide)
    · exact absurd (plain '#' hash) (by decide)
  · obtain ⟨part, beside, read⟩ := partBeside_of_get delimited found given
    rw [read] at written
    exact iriToUri_part_ne beside written

theorem withoutFragment_rooted (isFull : IsFullPath full) :
    ∃ rest, Address.withoutFragment full = '/' :: rest := by
  obtain ⟨rest, shape⟩ := isFull.rooted
  rw [shape]
  exact ⟨Address.withoutFragment rest, rfl⟩

/-- So the way back to a delimited address is the hidden field. -/
theorem followsHidden_of_redirect (isFull : IsFullPath full)
    (delimited : '&' ∈ full ∨ '#' ∈ full)
    (few : (Address.withoutFragment full).count '&' < maxNumberFields)
    (returned : redirect site (usedNext full) = .ok (.redirect full)) :
    FollowsHidden site full := by
  obtain ⟨tail, rooted⟩ := withoutFragment_rooted isFull
  by_cases member : '&' ∈ Address.withoutFragment full
  · obtain ⟨first, rest, shape, free⟩ := List.eq_append_cons_of_mem member
    have found := get_next_more free rest
    rw [← shape, ← actionFields] at found
    cases later : get (readFields rest) "next".toList with
    | none =>
        rw [later, Option.none_or] at found
        have given : unquotePlus first ≠ [] := by
          intro empty
          rw [Percent.unquotePlus_eq_nil_iff.mp empty, rooted] at shape
          exact absurd (List.cons.inj shape).1 (by decide)
        exact absurd returned (redirect_given_ne delimited found given)
    | some last =>
        rw [later, Option.some_or] at found
        by_cases empty : last = []
        · rw [empty] at found later
          rw [usedNext_of_empty found] at returned
          rcases redirect_eq_ok_iff.mp returned with named | ⟨_, accepted, _⟩
          · exact absurd (slash_mem isFull) (site.names _ _ named).1
          · exact ⟨first, rest, shape, free, later, few, accepted⟩
        · exact absurd returned (redirect_given_ne delimited found empty)
  · have found := get_next_single member
    rw [← actionFields] at found
    have given : unquotePlus (Address.withoutFragment full) ≠ [] := by
      intro empty
      rw [Percent.unquotePlus_eq_nil_iff.mp empty] at rooted
      cases rooted
    exact absurd returned (redirect_given_ne delimited found given)

/-- Reading once too often is undone when the address is written. -/
theorem followsAction_of_redirect (isFull : IsFullPath full) (noAmpersand : '&' ∉ full)
    (noHash : '#' ∉ full) (returned : redirect site (usedNext full) = .ok (.redirect full)) :
    FollowsAction site full := by
  rw [usedNext_of_free isFull.ne_nil noAmpersand noHash] at returned
  rcases redirect_eq_ok_iff.mp returned with named | ⟨_, accepted, written⟩
  · exact absurd (slash_mem_unquotePlus isFull) (site.names _ _ named).1
  · have read := Percent.unquotePlus_quote keepsFields_uriPlain.toKeepsEscapes (unquotePlus full)
    rw [← Frontend.iriToUri, written] at read
    obtain ⟨noEscape, noPlus⟩ := Percent.unquotePlus_eq_self_iff.mp read.symm
    refine ⟨unquotePlus full, written, noEscape, noPlus, ?_, ?_, accepted⟩
    · intro member
      refine noAmpersand (written ▸ ?_)
      exact (mem_quote_iff cuts_ampersand rfl).mpr member
    · intro member
      refine noHash (written ▸ ?_)
      exact (mem_quote_iff cuts_hash rfl).mpr member

theorem redirect_usedNext_iff (isFull : IsFullPath full) :
    ((Address.withoutFragment full).count '&' < maxNumberFields ∧
      redirect site (usedNext full) = .ok (.redirect full)) ↔
        FollowsAction site full ∨ FollowsHidden site full := by
  constructor
  · rintro ⟨few, returned⟩
    by_cases delimited : '&' ∈ full ∨ '#' ∈ full
    · exact .inr (followsHidden_of_redirect isFull delimited few returned)
    · rw [not_or] at delimited
      exact .inl (followsAction_of_redirect isFull delimited.1 delimited.2 returned)
  · rintro (action | hidden)
    · obtain ⟨plain, written, noEscape, noPlus, noAmpersand, noHash, accepted⟩ := action
      have freeAmpersand : '&' ∉ full := by
        rw [← written]
        exact fun member => noAmpersand ((mem_quote_iff cuts_ampersand rfl).mp member)
      have freeHash : '#' ∉ full := by
        rw [← written]
        exact fun member => noHash ((mem_quote_iff cuts_hash rfl).mp member)
      have read : unquotePlus full = plain := by
        rw [← written, Frontend.iriToUri,
          Percent.unquotePlus_quote keepsFields_uriPlain.toKeepsEscapes]
        exact Percent.unquotePlus_eq_self_iff.mpr ⟨noEscape, noPlus⟩
      have slash := slash_mem_unquotePlus isFull
      rw [Address.withoutFragment_of_not_mem freeHash, List.count_eq_zero.mpr freeAmpersand,
        usedNext_of_free isFull.ne_nil freeAmpersand freeHash]
      rw [read] at slash ⊢
      exact ⟨by decide, redirect_eq_ok_iff.mpr (.inr ⟨.inl slash, accepted, written⟩)⟩
    · obtain ⟨first, rest, shape, free, empty, few, accepted⟩ := hidden
      have found : get (actionFields full) "next".toList = some [] := by
        rw [actionFields, shape, get_next_more free, empty]
        rfl
      rw [usedNext_of_empty found]
      exact ⟨few, redirect_eq_ok_iff.mpr (.inr ⟨.inl (slash_mem isFull), accepted,
        isFull.iriToUri⟩)⟩

end Chain

/-- For every path and every query that an anonymous visitor asks for: when he logs in over the
form as it stands, he is redirected to exactly the full path if and only if the redirect to the
login page is possible and the full path either is what `iri_to_uri` makes of a text that is read
as it stands, or has an empty `next` of its own, so that the hidden field is followed. -/
theorem login_detour_returns_iff (site : Site) (rules : AuthRules) (table : UserTable)
    (credentials : Credentials) (request : RequestPath) (view : Except ViewError Answer)
    (valid : ∃ user, login rules (String.ofList credentials.username)
      (String.ofList credentials.password) table = .ok user) :
    loginDetour site rules table credentials request view =
        .ok (.redirect request.getFullPath) ↔
      site.accepts (loginAddress request.getFullPath) = true ∧
        (FollowsAction site request.getFullPath ∨ FollowsHidden site request.getFullPath) := by
  have isFull := isFullPath_getFullPath request
  have sent : frontendLoginRequired site none request view =
      redirect site (loginAddress request.getFullPath) := rfl
  rw [loginDetour, sent, redirect_loginAddress, ← redirect_usedNext_iff isFull]
  split_ifs with accepted
  · simp only [visitLogin_loginAddress, submitLogin_eq valid isFull.ne_nil]
    split_ifs with few
    · simp only [few, accepted, true_and]
    · simp only [few, false_and, and_false]
  · simp only [accepted, reduceCtorEq, false_and]

/-! ## Two queries -/

namespace Sample

def credentials : Credentials :=
  ⟨"token".toList, "admin@example.org".toList, "secret".toList, false⟩

/-- The upload page with a query. -/
def uploadPage (query : String) : RequestPath := ⟨"/app/upload/".toList, query.toList, rfl⟩

end Sample

theorem login_detour_returns_page :
    loginDetour Sample.site Sample.rules Sample.withAdmin Sample.credentials
        (Sample.uploadPage "page=2") (.ok .methodNotAllowed) =
      .ok (.redirect (Sample.uploadPage "page=2").getFullPath) := by
  have read : Percent.unquotePlus (Sample.uploadPage "page=2").getFullPath =
      (Sample.uploadPage "page=2").getFullPath := by decide +kernel
  have plain := Percent.unquotePlus_eq_self_iff.mp read
  refine (login_detour_returns_iff _ _ _ _ _ _ ⟨Sample.admin, by decide⟩).mpr ⟨by decide, .inl ?_⟩
  exact ⟨_, (isFullPath_getFullPath _).iriToUri, plain.1, plain.2, by decide, by decide, by decide⟩

/-- The first ampersand of the query ends the `next` of the action. -/
theorem login_detour_loses_query :
    (∃ user, login Sample.rules (String.ofList Sample.credentials.username)
      (String.ofList Sample.credentials.password) Sample.withAdmin = .ok user) ∧
    (Sample.uploadPage "a=1&b=2").getFullPath = "/app/upload/?a=1&b=2".toList ∧
    loginDetour Sample.site Sample.rules Sample.withAdmin Sample.credentials
        (Sample.uploadPage "a=1&b=2") (.ok .methodNotAllowed) =
      .ok (.redirect "/app/upload/?a=1".toList) :=
  ⟨⟨Sample.admin, by decide⟩, by decide, by decide +kernel⟩

end Doorito.Frontend
