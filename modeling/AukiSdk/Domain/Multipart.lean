import AukiSdk.Foundation.Delimiter
import AukiSdk.Net.Identifiers

/-!
# The multipart body of a domain write

`multipart` of the domain client, and a multipart parser that reads its bodies back.
-/

namespace AukiSdk.Domain

open AukiSdk.Foundation Delimiter List
open AukiSdk.Net

def utf8 (text : List Char) : List UInt8 :=
  text.flatMap String.utf8EncodeChar

inductive DataWrite where
  | named (name dataType : String)
  | byId (id : Uuid)

/-- `DataError::InvalidInput`, the one error here. -/
structure InvalidInput where
  text : String
  deriving DecidableEq

/-- `char::is_control`. -/
def isControl (char : Char) : Bool :=
  char.toNat < 0x20 || (0x7f ≤ char.toNat && char.toNat < 0xa0)

def validateText (value : String) : Except InvalidInput Unit :=
  if value.isEmpty || value.utf8ByteSize > 128 || value.toList.any isControl then
    .error ⟨"names and data types require 1-128 bytes without control characters"⟩
  else
    .ok ()

/-- The punctuation that the server does not allow. -/
def disallowed : List Char := ";!?<>[]\x7b\x7d()/\\\"$#@*^&|~%=+".toList

/-- Two calls of `str::replace`, for backslashes and for quotes. -/
def escape (text : List Char) : List Char :=
  (text.flatMap fun char => if char = '\x5c' then ['\x5c', '\x5c'] else [char]).flatMap
    fun char => if char = '\x22' then ['\x5c', '\x22'] else [char]

/-- The parameters of the disposition. -/
def DataWrite.disposition : DataWrite → Except InvalidInput (List Char)
  | .named name dataType =>
    validateText name >>= fun _ => validateText dataType >>= fun _ =>
      if [name, dataType].any fun value => value.toList.any (· ∈ disallowed) then
        .error ⟨"name or data type contains server-disallowed punctuation"⟩
      else
        .ok ("name=\"".toList ++ escape name.toList ++ "\"; data-type=\"".toList ++
          escape dataType.toList ++ "\"".toList)
  | .byId id => .ok ("id=\"".toList ++ id.toText.toList ++ "\"".toList)

def boundaryOf (uuid : Uuid) : List Char := "auki-".toList ++ uuid.toText.toList

/-- `multipart`; `none` when every drawn boundary occurs in the payload. -/
def multipart (draws : List Uuid) (target : DataWrite) (bytes : List UInt8) :
    Except InvalidInput (Option (List UInt8 × List Char)) :=
  target.disposition.map fun disposition =>
    (draws.find? fun uuid => !decide (utf8 (boundaryOf uuid) <:+: bytes)).map fun uuid =>
      (utf8 ("--".toList ++ boundaryOf uuid ++
          "\r\nContent-Type: application/octet-stream\r\nContent-Disposition: form-data; ".toList ++
          disposition ++ "\r\n\r\n".toList) ++ bytes ++
          utf8 ("\r\n--".toList ++ boundaryOf uuid ++ "--\r\n".toList),
        "multipart/form-data; boundary=".toList ++ boundaryOf uuid)

/-- The lines of the header block of a part, and its content. -/
structure Part where
  headers : List (List UInt8)
  content : List UInt8
  deriving DecidableEq

def crlf : List UInt8 := [13, 10]

def dashes : List UInt8 := [45, 45]

def headerLines : ℕ → List UInt8 → List (List UInt8)
  | 0, block => [block]
  | fuel + 1, block =>
    match cut crlf block with
    | none => [block]
    | some (line, rest) => line :: headerLines fuel rest

/-- A header block up to the first empty line, a content up to the delimiter. -/
def partsFrom (delimiter : List UInt8) : ℕ → List UInt8 → Option (List Part)
  | 0, _ => none
  | fuel + 1, text =>
    if dashes <+: text then
      some []
    else if crlf <+: text then
      (cut (crlf ++ crlf) (text.drop 2)).bind fun (block, text) =>
        (cut delimiter text).bind fun (content, text) =>
          (partsFrom delimiter fuel text).map fun parts =>
            ⟨headerLines block.length block, content⟩ :: parts
    else
      none

def parseMultipart (boundary body : List UInt8) : Option (List Part) :=
  if dashes ++ boundary <+: body then
    partsFrom (crlf ++ dashes ++ boundary) body.length (body.drop (2 + boundary.length))
  else
    none

/-- A quoted string behind its first quote, with its escapes undone. -/
def quoted : Bool → List UInt8 → Option (List UInt8 × List UInt8)
  | _, [] => none
  | true, byte :: rest => (quoted false rest).map fun parts => (byte :: parts.1, parts.2)
  | false, byte :: rest =>
    if byte = 34 then some ([], rest)
    else if byte = 92 then quoted true rest
    else (quoted false rest).map fun parts => (byte :: parts.1, parts.2)

/-- The parameters of a header, each with a quoted value. -/
def parameters : ℕ → List UInt8 → Option (List (List UInt8 × List UInt8))
  | _, [] => some []
  | 0, _ :: _ => none
  | fuel + 1, text =>
    if utf8 "; ".toList <+: text then
      (cut (utf8 "=\"".toList) (text.drop 2)).bind fun (key, text) =>
        (quoted false text).bind fun (value, text) =>
          (parameters fuel text).map fun others => (key, value) :: others
    else
      none

/-- The parameters that are sent for a target. -/
def DataWrite.parameters : DataWrite → List (List UInt8 × List UInt8)
  | .named name dataType =>
    [(utf8 "name".toList, utf8 name.toList), (utf8 "data-type".toList, utf8 dataType.toList)]
  | .byId id => [(utf8 "id".toList, utf8 id.toText.toList)]

theorem utf8_append (left right : List Char) : utf8 (left ++ right) = utf8 left ++ utf8 right :=
  flatMap_append

theorem notMem_utf8 {text : List Char} (char : Char) (hascii : char.toNat < 128)
    (htext : char ∉ text) : UInt8.ofNat char.toNat ∉ utf8 text := by
  intro hm
  obtain ⟨found, hfound, hbyte⟩ := mem_flatMap.mp hm
  have hval : (UInt8.ofNat char.toNat).toNat = char.toNat :=
    UInt8.toNat_ofNat_of_lt' (hascii.trans (by decide))
  have heq := toNat_of_mem_utf8 hbyte (by rwa [hval])
  rw [hval] at heq
  exact htext (Char.toNat_inj.mp heq ▸ hfound)

theorem quoted_append {left rest : List UInt8} (hleft : ∀ byte ∈ left, byte ≠ 34 ∧ byte ≠ 92) :
    quoted false (left ++ rest) =
      (quoted false rest).map fun parts => (left ++ parts.1, parts.2) := by
  induction left with
  | nil => simp
  | cons byte left ih =>
    obtain ⟨hquote, hslash⟩ := hleft byte mem_cons_self
    rw [cons_append, quoted, if_neg hquote, if_neg hslash,
      ih fun byte hm => hleft byte (mem_cons_of_mem _ hm), Option.map_map]
    rfl

theorem escape_cons (char : Char) (text : List Char) :
    escape (char :: text) = escape [char] ++ escape text := by
  simp [escape]

theorem quoted_escaped (byte : UInt8) (rest : List UInt8) : quoted false (92 :: byte :: rest) =
      (quoted false rest).map fun parts => (byte :: parts.1, parts.2) := rfl

/-- Escaped text reads back, whatever it contains. -/
theorem quoted_escape (text : List Char) (rest : List UInt8) :
    quoted false (utf8 (escape text) ++ 34 :: rest) = some (utf8 text, rest) := by
  induction text with
  | nil => rfl
  | cons char text ih =>
    rw [escape_cons, utf8_append, append_assoc]
    by_cases hslash : char = '\x5c'
    · subst hslash
      rw [show utf8 (escape ['\x5c']) = [92, 92] by decide, cons_append, cons_append,
        quoted_escaped, nil_append, ih]
      rfl
    by_cases hquote : char = '\x22'
    · subst hquote
      rw [show utf8 (escape ['\x22']) = [92, 34] by decide, cons_append, cons_append,
        quoted_escaped, nil_append, ih]
      rfl
    have hplain : escape [char] = [char] := by simp [escape, hslash, hquote]
    have hbytes : ∀ byte ∈ utf8 [char], byte ≠ 34 ∧ byte ≠ 92 := by
      intro byte hbyte
      constructor
      · rintro rfl
        exact notMem_utf8 '\x22' (by decide) (by simpa using Ne.symm hquote) hbyte
      · rintro rfl
        exact notMem_utf8 '\x5c' (by decide) (by simpa using Ne.symm hslash) hbyte
    rw [hplain, quoted_append hbytes, ih]
    simp [utf8]

theorem mem_escape {char : Char} {text : List Char} (hm : char ∈ escape text) :
    char ∈ text ∨ char = '\x5c' ∨ char = '\x22' := by
  obtain ⟨middle, hmiddle, hchar⟩ := mem_flatMap.mp hm
  obtain ⟨found, hfound, hmid⟩ := mem_flatMap.mp hmiddle
  by_cases hquote : middle = '\x22'
  · rw [if_pos hquote] at hchar
    right
    simpa using hchar
  rw [if_neg hquote, mem_singleton] at hchar
  subst hchar
  by_cases hslash : found = '\x5c'
  · rw [if_pos hslash] at hmid
    right; left
    simpa using hmid
  · rw [if_neg hslash, mem_singleton] at hmid
    exact .inl (hmid ▸ hfound)

theorem toText_chars {uuid : Uuid} {char : Char} (hm : char ∈ uuid.toText.toList) :
    char.isAlphanum = true ∨ char = '-' := by
  have hhex (hm : char ∈ uuid.hexDigits) : char.isAlphanum = true := by
    obtain ⟨index, -, rfl⟩ := mem_map.mp hm
    have hall : ∀ digit < 16, (Text.hexDigit digit).isAlphanum = true := by decide
    exact hall _ (Nat.mod_lt _ (by decide))
  simp only [Uuid.toText, String.toList_ofList, mem_append, mem_cons] at hm
  rcases hm with hm | rfl | hm | rfl | hm | rfl | hm | rfl | hm
  · exact .inl (hhex (mem_of_mem_take hm))
  · exact .inr rfl
  · exact .inl (hhex (mem_of_mem_drop (mem_of_mem_take hm)))
  · exact .inr rfl
  · exact .inl (hhex (mem_of_mem_drop (mem_of_mem_take hm)))
  · exact .inr rfl
  · exact .inl (hhex (mem_of_mem_drop (mem_of_mem_take hm)))
  · exact .inr rfl
  · exact .inl (hhex (mem_of_mem_drop hm))

theorem boundaryOf_chars {uuid : Uuid} {char : Char} (hm : char ∈ boundaryOf uuid) :
    char.isAlphanum = true ∨ char = '-' := by
  cases mem_append.mp hm with
  | inl hm =>
    have hall : ("auki-".toList.all fun char => char.isAlphanum || char = '-') = true := by decide
    simpa using all_eq_true.mp hall char hm
  | inr hm => exact toText_chars hm

theorem notMem_of_validateText {value : String} (hvalid : validateText value = .ok ()) :
    '\r' ∉ value.toList := by
  intro hm
  rw [validateText, if_pos] at hvalid
  · cases hvalid
  · have hcontrol : value.toList.any isControl = true := any_eq_true.mpr ⟨'\r', hm, by decide⟩
    rw [hcontrol, Bool.or_true]

theorem parameters_cons {fuel : ℕ} {key value text rest : List UInt8} (hkey : 61 ∉ key)
    (hquoted : quoted false text = some (value, rest)) :
    parameters (fuel + 1) (utf8 "; ".toList ++ (key ++ (utf8 "=\"".toList ++ text))) =
      (parameters fuel rest).map fun others => (key, value) :: others := by
  have hsep : utf8 "; ".toList = [59, 32] := by decide
  have hequals : utf8 "=\"".toList = [61, 34] := by decide
  have hcut : cut [61, 34] (key ++ ([61, 34] ++ text)) = some (key, text) := by
    rw [cut_append hkey, cut_here]
    simp
  rw [hsep, cons_append, parameters, ← cons_append, hsep, hequals, if_pos (prefix_append _ _)]
  · change (cut [61, 34] (key ++ ([61, 34] ++ text))).bind _ = _
    rw [hcut, Option.bind_some]
    simp only [hquoted, Option.bind_some]
  · exact nofun

/-- The accepted parameters have no carriage return, and read back as they are sent. -/
theorem disposition_spec {target : DataWrite} {disposition : List Char}
    (hdisposition : target.disposition = .ok disposition) :
    '\r' ∉ disposition ∧ ∀ fuel,
      parameters (fuel + 2) (utf8 ("; ".toList ++ disposition)) = some target.parameters := by
  cases target with
  | byId id =>
    cases hdisposition
    have hplain (char : Char) (hchar : (char.isAlphanum || char = '-') = false) :
        char ∉ id.toText.toList := by
      intro hm
      rcases toText_chars hm with hal | rfl
      · simp [hal] at hchar
      · cases hchar
    refine ⟨?_, fun fuel => ?_⟩
    · simp [hplain '\r' (by decide)]
    · have hquoted : quoted false (utf8 id.toText.toList ++ [34]) =
          some (utf8 id.toText.toList, []) := by
        rw [quoted_append, quoted, if_pos rfl]
        · simp
        · intro byte hbyte
          constructor
          · rintro rfl
            exact notMem_utf8 '\x22' (by decide) (hplain _ (by decide)) hbyte
          · rintro rfl
            exact notMem_utf8 '\x5c' (by decide) (hplain _ (by decide)) hbyte
      have htext : utf8 ("; ".toList ++ ("id=\"".toList ++ id.toText.toList ++ "\"".toList)) =
          utf8 "; ".toList ++ (utf8 "id".toList ++ (utf8 "=\"".toList ++
            (utf8 id.toText.toList ++ [34]))) := by
        rw [utf8_append, utf8_append, utf8_append, append_assoc]
        rfl
      rw [htext, parameters_cons (by decide) hquoted]
      rfl
  | named name dataType =>
    rw [DataWrite.disposition] at hdisposition
    cases hname : validateText name with
    | error error =>
      rw [hname] at hdisposition
      cases hdisposition
    | ok =>
    cases htype : validateText dataType with
    | error error =>
      rw [hname, htype] at hdisposition
      cases hdisposition
    | ok =>
    rw [hname, htype] at hdisposition
    simp only [bind, Except.bind] at hdisposition
    split at hdisposition
    · cases hdisposition
    cases hdisposition
    have hfree {value : String} (hvalid : validateText value = .ok ()) :
        '\r' ∉ escape value.toList := by
      intro hm
      rcases mem_escape hm with hm | heq | heq
      · exact notMem_of_validateText hvalid hm
      · revert heq; decide
      · revert heq; decide
    refine ⟨?_, fun fuel => ?_⟩
    · simp [hfree hname, hfree htype]
    · have htext : utf8 ("; ".toList ++ ("name=\"".toList ++ escape name.toList ++
            "\"; data-type=\"".toList ++ escape dataType.toList ++ "\"".toList)) =
          utf8 "; ".toList ++ (utf8 "name".toList ++ (utf8 "=\"".toList ++
            (utf8 (escape name.toList) ++ 34 :: (utf8 "; ".toList ++ (utf8 "data-type".toList ++
              (utf8 "=\"".toList ++ (utf8 (escape dataType.toList) ++ [34]))))))) := by
        simp only [utf8_append, append_assoc]
        rfl
      rw [htext, parameters_cons (by decide) (quoted_escape _ _),
        parameters_cons (by decide) (quoted_escape _ _)]
      cases fuel <;> rfl

theorem headerLines_pair {first second : List UInt8} (hfst : 13 ∉ first) (hsnd : 13 ∉ second)
    (fuel : ℕ) : headerLines (fuel + 1) (first ++ (crlf ++ second)) = [first, second] := by
  rw [headerLines, crlf, cut_append hfst, cut_here]
  have hlast : headerLines fuel second = [second] := by
    cases fuel with
    | zero => rfl
    | succ fuel => rw [headerLines, crlf, cut_eq_none hsnd]
  simp [hlast]

/-- The first empty line follows the two header lines. -/
theorem cut_headers {first second rest : List UInt8} {byte : UInt8} (hfst : 13 ∉ first)
    (hsnd : 13 ∉ byte :: second) :
    cut (crlf ++ crlf) (first ++ (crlf ++ (byte :: second ++ (crlf ++ crlf ++ rest)))) =
      some (first ++ (crlf ++ byte :: second), rest) := by
  have hbyte : 13 ≠ byte := by
    rintro rfl
    exact hsnd mem_cons_self
  have hmark : crlf ++ crlf = 13 :: [10, 13, 10] := rfl
  rw [hmark, cut_append hfst]
  have hline : cut (13 :: [10, 13, 10])
      (crlf ++ (byte :: second ++ (13 :: [10, 13, 10] ++ rest))) =
        some (crlf ++ byte :: second, rest) := by
    have hno : ¬ 13 :: [10, 13, 10] <+:
        13 :: 10 :: (byte :: second ++ (13 :: [10, 13, 10] ++ rest)) := by
      intro hpre
      simp only [cons_append, cons_prefix_cons, true_and] at hpre
      exact hbyte hpre.1
    change cut _ (13 :: 10 :: (byte :: second ++ (13 :: [10, 13, 10] ++ rest))) = _
    rw [cut_cons hno, cut_cons (not_prefix_of_ne (by decide)), cut_append hsnd, cut_here]
    simp [crlf]
  rw [hline]
  rfl

theorem parseMultipart_body {boundary first second content : List UInt8} {byte : UInt8}
    (hboundary : 13 ∉ boundary) (hfst : 13 ∉ first) (hsnd : 13 ∉ byte :: second)
    (hfree : ¬ boundary <:+: content) :
    parseMultipart boundary (dashes ++ boundary ++ (crlf ++ (first ++ (crlf ++ (byte :: second ++
      (crlf ++ crlf ++ (content ++ (crlf ++ dashes ++ boundary ++ (dashes ++ crlf))))))))) =
      some [⟨[first, byte :: second], content⟩] := by
  have hopen (rest : List UInt8) : ¬ dashes <+: crlf ++ rest :=
    not_prefix_of_ne (by decide : (13 : UInt8) ≠ 45)
  have hclose (fuel : ℕ) : partsFrom (crlf ++ dashes ++ boundary) (fuel + 1) (dashes ++ crlf) =
      some [] := by
    rw [partsFrom, if_pos (prefix_append _ _)]
  have hcontent (rest : List UInt8) : cut (crlf ++ dashes ++ boundary)
      (content ++ (crlf ++ dashes ++ boundary ++ rest)) = some (content, rest) := by
    change cut (13 :: (10 :: 45 :: 45 :: boundary)) _ = _
    refine cut_marked (by simp [hboundary]) fun hin => ?_
    exact hfree ((suffix_append [13, 10, 45, 45] boundary).isInfix.trans hin)
  have hlines : headerLines (first ++ (crlf ++ byte :: second)).length
      (first ++ (crlf ++ byte :: second)) = [first, byte :: second] := by
    obtain ⟨fuel, hfuel⟩ : ∃ fuel, (first ++ (crlf ++ byte :: second)).length = fuel + 1 :=
      Nat.exists_eq_succ_of_ne_zero (by simp [crlf])
    rw [hfuel, headerLines_pair hfst hsnd]
  have hparts (fuel : ℕ) : partsFrom (crlf ++ dashes ++ boundary) (fuel + 2)
      (crlf ++ (first ++ (crlf ++ (byte :: second ++ (crlf ++ crlf ++ (content ++
        (crlf ++ dashes ++ boundary ++ (dashes ++ crlf)))))))) =
      some [⟨[first, byte :: second], content⟩] := by
    rw [partsFrom, if_neg (hopen _), if_pos (prefix_append _ _)]
    have hdrop (rest : List UInt8) : (crlf ++ rest).drop 2 = rest := rfl
    rw [hdrop, cut_headers hfst hsnd, Option.bind_some]
    simp only [hcontent, hclose, hlines, Option.bind_some, Option.map_some]
  rw [parseMultipart, if_pos (prefix_append _ _), drop_left' (by simp [dashes]; omega),
    length_append, @length_append _ dashes, Nat.add_assoc, Nat.add_comm]
  exact hparts _

theorem utf8_crlf : utf8 "\r\n".toList = crlf := rfl

theorem utf8_empty_line : utf8 "\r\n\r\n".toList = crlf ++ crlf := rfl

theorem utf8_dashes : utf8 "--".toList = dashes := rfl

theorem utf8_opening : utf8 "\r\n--".toList = crlf ++ dashes := rfl

theorem utf8_closing : utf8 "--\r\n".toList = dashes ++ crlf := rfl

/-- A body of `multipart` holds one part, the one that was sent, for every parser. -/
theorem multipart_decodes {draws : List Uuid} {target : DataWrite} {bytes body : List UInt8}
    {contentType : List Char}
    (hmul : multipart draws target bytes = .ok (some (body, contentType))) :
    ∃ boundary rest, contentType = "multipart/form-data; boundary=".toList ++ boundary ∧
      (∀ char ∈ boundary, char.isAlphanum = true ∨ char = '-') ∧
      parseMultipart (utf8 boundary) body =
        some [⟨[utf8 "Content-Type: application/octet-stream".toList,
          utf8 "Content-Disposition: form-data".toList ++ rest], bytes⟩] ∧
      parameters rest.length rest = some target.parameters := by
  rw [multipart] at hmul
  cases hdisposition : target.disposition with
  | error error =>
    rw [hdisposition] at hmul
    cases hmul
  | ok disposition =>
    rw [hdisposition] at hmul
    obtain ⟨uuid, hdraw, hpair⟩ := Option.map_eq_some_iff.mp (Except.ok.inj hmul)
    obtain ⟨rfl, rfl⟩ := Prod.mk.inj hpair
    obtain ⟨hno, hparameters⟩ := disposition_spec hdisposition
    have hboundary : '\r' ∉ boundaryOf uuid := by
      intro hmem
      have hchars := boundaryOf_chars hmem
      revert hchars
      decide
    have hfree : ¬ utf8 (boundaryOf uuid) <:+: bytes := by simpa using find?_some hdraw
    obtain ⟨tail, htail⟩ : ∃ tail,
        utf8 ("Content-Disposition: form-data; ".toList ++ disposition) = 67 :: tail := by
      have hhead : "Content-Disposition: form-data; ".toList =
          'C' :: "ontent-Disposition: form-data; ".toList := by simp
      exact ⟨utf8 ("ontent-Disposition: form-data; ".toList ++ disposition),
        congrArg (fun text => utf8 (text ++ disposition)) hhead⟩
    have hsnd : 13 ∉ utf8 ("Content-Disposition: form-data; ".toList ++ disposition) := by
      refine notMem_utf8 '\r' (by decide) ?_
      rw [mem_append, not_or]
      exact ⟨by simp, hno⟩
    refine ⟨boundaryOf uuid, utf8 ("; ".toList ++ disposition), rfl, fun _ => boundaryOf_chars,
      ?_, ?_⟩
    · have hbody := @parseMultipart_body _ (utf8 "Content-Type: application/octet-stream".toList)
        tail bytes 67 (notMem_utf8 '\r' (by decide) hboundary)
        (notMem_utf8 '\r' (by decide) (by simp)) (htail ▸ hsnd) hfree
      have hline : "Content-Disposition: form-data; ".toList =
          "Content-Disposition: form-data".toList ++ "; ".toList := by simp
      have hheader :
          "\r\nContent-Type: application/octet-stream\r\nContent-Disposition: form-data; ".toList =
          "\r\n".toList ++ ("Content-Type: application/octet-stream".toList ++
            ("\r\n".toList ++ "Content-Disposition: form-data; ".toList)) := by simp
      rw [← htail, hline] at hbody
      rw [hheader, hline]
      simpa only [utf8_append, append_assoc, utf8_crlf, utf8_dashes, utf8_empty_line,
        utf8_opening, utf8_closing] using hbody
    · obtain ⟨fuel, hfuel⟩ : ∃ fuel, (utf8 ("; ".toList ++ disposition)).length = fuel + 2 := by
        rw [utf8_append, length_append]
        exact ⟨_, Nat.add_comm _ _⟩
      rw [hfuel, hparameters]

theorem multipart_decodes_sample : ∃ body contentType,
    multipart [0] (.named "map" "glb") [13, 10, 45] = .ok (some (body, contentType)) ∧
      ∃ boundary rest, contentType = "multipart/form-data; boundary=".toList ++ boundary ∧
        (∀ char ∈ boundary, char.isAlphanum = true ∨ char = '-') ∧
        parseMultipart (utf8 boundary) body =
          some [⟨[utf8 "Content-Type: application/octet-stream".toList,
            utf8 "Content-Disposition: form-data".toList ++ rest], [13, 10, 45]⟩] ∧
        parameters rest.length rest = some (DataWrite.named "map" "glb").parameters :=
  ⟨_, _, rfl, @multipart_decodes [0] (.named "map" "glb") [13, 10, 45] _ _ rfl⟩

end AukiSdk.Domain
