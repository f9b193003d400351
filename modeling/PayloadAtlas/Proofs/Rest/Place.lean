import Mathlib.Data.List.Basic
import Mathlib.Data.List.Flatten
import PayloadAtlas.Proofs.Rest.Url
import PayloadAtlas.Rest.Client

/-!
# Where requests go

The name of a table or a procedure is put into an address as it is, and the address is read again as a whole. A request
goes to what its call is for (`Url.GoesTo`) just if the name stands there as one segment of its own
(`Url.IsSegment`, `RestClient.request_goesTo_iff_isSegment`); a slash, a question mark, dots and some more lead
elsewhere.
-/

namespace PayloadAtlas

open Percent (encode decode inPath HasEscape)

namespace Url

variable {name : String} {cs ds piece : List Char} {done : List (List Char)}

/-! ## Names in a path -/

/-- A name that stands in a path as one segment: nothing in it ends the path or the segment, nothing of it is passed
over, and it is neither dots nor read as escapes. -/
structure IsSegment (name : String) : Prop where
  plain : ∀ c ∈ name.toList, c ∉ ['/', '\\', '?', '#', '\t', '\n', '\r']
  ending : ∀ c ∈ name.toList.getLast?, 0x20 < c.toNat
  not_dot : name ≠ "."
  not_dots : name ≠ ".."
  not_escaped : ¬HasEscape name.toList

/-- A text that is left of another, and is as long, is the other. -/
theorem eq_of_sublist (h : cs.Sublist ds)
    (hlength : (ds.flatMap String.utf8EncodeChar).length ≤ (cs.flatMap String.utf8EncodeChar).length) : cs = ds := by
  have hbytes := (h.flatMap String.utf8EncodeChar).eq_of_length_le hlength
  rw [← String.toList_ofList (l := cs), ← String.toList_ofList (l := ds), ← Text.bytesOf_eq_flatMap,
    ← Text.bytesOf_eq_flatMap] at hbytes
  exact String.ofList_injective (Text.eq_of_bytesOf_eq hbytes)

/-- What `tidy` leaves of a text is in it. -/
theorem tidy_sublist (cs : List Char) : (tidy cs).Sublist cs :=
  List.filter_sublist.trans (List.rdropWhile_prefix _ _).sublist

/-- A text is its own `tidy` if it does not end in a blank and has no line end or tab. -/
theorem tidy_eq_self_iff : tidy cs = cs ↔
    (∀ c ∈ cs.getLast?, 0x20 < c.toNat) ∧ ∀ c ∈ cs, c ∉ ['\t', '\n', '\r'] := by
  have hends : cs.rdropWhile (fun c => c.toNat ≤ 0x20) = cs ↔ ∀ c ∈ cs.getLast?, 0x20 < c.toNat := by
    rw [List.rdropWhile_eq_self_iff]
    cases cs using List.reverseRecOn <;> simp
  have hlines : (cs.filter fun c => c != '\t' && c != '\n' && c != '\r') = cs ↔ ∀ c ∈ cs, c ∉ ['\t', '\n', '\r'] := by
    simp [List.filter_eq_self, and_assoc]
  rw [← hends, ← hlines]
  constructor
  · intro h
    have hsub : cs.Sublist (tidy cs) := by rw [h]
    have hkept : cs.rdropWhile (fun c => c.toNat ≤ 0x20) = cs :=
      (List.rdropWhile_prefix _ _).sublist.antisymm (hsub.trans List.filter_sublist)
    rw [tidy, hkept] at h
    exact ⟨hkept, h⟩
  · rintro ⟨hkept, h⟩
    rw [tidy, hkept, h]

theorem pathAndQuery_fst_sublist (cs : List Char) : (pathAndQuery cs).1.Sublist cs :=
  (splitAt_fst_sublist _ _).trans (splitAt_fst_sublist _ _)

theorem notMem_pathAndQuery_fst (cs : List Char) : '?' ∉ (pathAndQuery cs).1 ∧ '#' ∉ (pathAndQuery cs).1 :=
  ⟨notMem_splitAt_fst _ _, fun h => notMem_splitAt_fst '#' cs ((splitAt_fst_sublist _ _).subset h)⟩

theorem IsSegment.pathAndQuery_tidy (h : IsSegment name) : pathAndQuery (tidy name.toList) = (name.toList, none) := by
  have hout (k : Char) (hk : k ∈ ['/', '\\', '?', '#', '\t', '\n', '\r']) : k ∉ name.toList :=
    fun hmem => h.plain k hmem hk
  have htidy : tidy name.toList = name.toList :=
    tidy_eq_self_iff.mpr ⟨h.ending, fun c hc hline => h.plain c hc (by simp_all)⟩
  rw [htidy, pathAndQuery, splitAt_of_notMem (hout '#' (by decide)), splitAt_of_notMem (hout '?' (by decide))]

/-- As a segment is no dots, it is not read by `dotsOf` as dots when it is written. -/
theorem IsSegment.dotsOf_ne (h : IsSegment name) {dots : List Char} (hdots : dots = ['.'] ∨ dots = ['.', '.']) :
    dotsOf (encode inPath name.toList) ≠ dots := by
  intro heq
  have hbytes {n : Nat} (hn : dots = List.replicate n '.') : Text.bytesOf name = List.replicate n 0x2E := by
    rw [Text.bytesOf_eq_flatMap, ← Percent.decode_encode h.not_escaped, decode_of_dotsOf (heq.trans hn)]
  rcases hdots with rfl | rfl
  · exact h.not_dot (Text.eq_of_bytesOf_eq (hbytes (n := 1) rfl))
  · exact h.not_dots (Text.eq_of_bytesOf_eq (hbytes (n := 2) rfl))

/-- A segment is put after the others by `segmentsAfter` as it is written. -/
theorem IsSegment.segmentsAfter_eq (h : IsSegment name) (done : List (List Char)) :
    segmentsAfter done name.toList = done.reverse.map String.ofList ++ [String.ofList (encode inPath name.toList)] := by
  have hcut : cutSlashes name.toList = [name.toList] := by
    refine cutSlashes_of_forall fun c hc => ?_
    have hplain := h.plain c hc
    simp_all [isSlash]
  have hdots : ∀ s ∈ [encode inPath name.toList], dotsOf s ≠ ['.'] ∧ dotsOf s ≠ ['.', '.'] :=
    List.forall_mem_singleton.mpr ⟨h.dotsOf_ne (.inl rfl), h.dotsOf_ne (.inr rfl)⟩
  rw [segmentsAfter, hcut, List.map_singleton, resolve_of_forall hdots, List.map_append, List.map_singleton]

/-- A segment `.` leaves the path where it is. -/
theorem segmentsAfter_dot (done : List (List Char)) :
    segmentsAfter done ['.'] = done.reverse.map String.ofList ++ [""] := by
  show ([] :: done).reverse.map String.ofList = _
  rw [List.reverse_cons, List.map_append]
  rfl

/-- A segment `..` takes the last segment away. -/
theorem segmentsAfter_dots (done : List (List Char)) :
    segmentsAfter done ['.', '.'] = done.tail.reverse.map String.ofList ++ [""] := by
  show ([] :: done.tail).reverse.map String.ofList = _
  rw [List.reverse_cons, List.map_append]
  rfl

/-- The empty name is a segment, as it is where a path ends in a slash. -/
theorem isSegment_empty : IsSegment "" where
  plain := by simp
  ending := by simp
  not_dot := by decide
  not_dots := by decide
  not_escaped := Percent.not_hasEscape (by simp)

/-- A name that is a piece of itself, once query, fragment and blanks are gone, had nothing of the kind. -/
theorem plain_of_mem_cutSlashes (h : name.toList ∈ cutSlashes (pathAndQuery (tidy name.toList)).1) :
    (∀ c ∈ name.toList, c ∉ ['/', '\\', '?', '#', '\t', '\n', '\r']) ∧
      ∀ c ∈ name.toList.getLast?, 0x20 < c.toNat := by
  obtain ⟨hsub, hslashes⟩ := of_mem_cutSlashes h
  have hpath := pathAndQuery_fst_sublist (tidy name.toList)
  have hkept := (hpath.trans (tidy_sublist _)).antisymm hsub
  obtain ⟨hending, hlines⟩ := tidy_eq_self_iff.mp ((tidy_sublist _).antisymm (hsub.trans hpath))
  obtain ⟨hquery, hfragment⟩ := notMem_pathAndQuery_fst (tidy name.toList)
  rw [hkept] at hquery hfragment
  refine ⟨fun c hc hmem => ?_, hending⟩
  have hslash := hslashes c hc
  have hline := hlines c hc
  have hne {k : Char} (hk : k ∉ name.toList) : c ≠ k := fun heq => hk (heq ▸ hc)
  simp_all [isSlash]

/-- A name whose bytes are those of the last segment stands in the path as it is. -/
theorem isSegment_of_decode {front : List String} {segment : String}
    (hpath : segmentsAfter done (pathAndQuery (tidy name.toList)).1 = front ++ [segment])
    (hdecode : decode segment.toList = Text.bytesOf name) : IsSegment name := by
  have hempty {front'} (hfront : segmentsAfter done (pathAndQuery (tidy name.toList)).1 = front' ++ [""]) :
      name = "" := by
    obtain rfl : segment = "" := (List.cons.inj (List.append_inj' (hpath.symm.trans hfront) rfl).2).1
    exact Text.eq_empty_of_bytesOf hdecode.symm
  have hpieces : (cutSlashes (pathAndQuery (tidy name.toList)).1).map (encode inPath) ≠ [] := by
    simp [cutSlashes_ne_nil]
  obtain ⟨front', last, hresolve, hlast⟩ := resolve_eq_concat hpieces done
  have hsegments : segmentsAfter done (pathAndQuery (tidy name.toList)).1 =
      front'.map String.ofList ++ [String.ofList last] := by
    rw [segmentsAfter, hresolve, List.map_append, List.map_singleton]
  -- the last segment is empty, or it is one of the pieces of the name
  rcases hlast with rfl | hlast
  · rw [hempty hsegments]
    exact isSegment_empty
  · obtain ⟨piece, hpiece, rfl⟩ := List.mem_map.mp hlast
    obtain rfl : segment = _ := (List.cons.inj (List.append_inj' (hpath.symm.trans hsegments) rfl).2).1
    rw [String.toList_ofList, Text.bytesOf_eq_flatMap] at hdecode
    have hsub := (of_mem_cutSlashes hpiece).1.trans ((pathAndQuery_fst_sublist _).trans (tidy_sublist _))
    have hlength := Percent.length_decode_encode piece
    rw [hdecode] at hlength
    -- nothing of the name is lost on the way to the piece
    obtain rfl : piece = name.toList := eq_of_sublist hsub hlength.1
    obtain ⟨hplain, hending⟩ := plain_of_mem_cutSlashes hpiece
    refine ⟨hplain, hending, ?_, ?_, fun hescape => Nat.lt_irrefl _ (hlength.2 hescape)⟩
    · rintro rfl
      exact absurd (hempty (segmentsAfter_dot done)) (by decide)
    · rintro rfl
      exact absurd (hempty (segmentsAfter_dots done)) (by decide)

/-- A name is a segment of its own below an address just if it stands there as it is, as `IsSegment` says. -/
theorem exists_segment_under_iff (base : Url) (name : String) :
    (∃ segment, (base.under name).path = base.path.dropLast ++ [segment] ∧
      decode segment.toList = Text.bytesOf name) ↔ IsSegment name := by
  constructor
  · rintro ⟨segment, hpath, hdecode⟩
    rw [path_under] at hpath
    exact isSegment_of_decode hpath hdecode
  · intro h
    refine ⟨String.ofList (encode inPath name.toList), ?_, ?_⟩
    · rw [path_under, h.pathAndQuery_tidy, h.segmentsAfter_eq, List.reverse_reverse]
      simp [Function.comp_def]
    · rw [String.toList_ofList, Percent.decode_encode h.not_escaped, Text.bytesOf_eq_flatMap]

theorem IsSegment.query_under_eq_none (h : IsSegment name) (base : Url) : (base.under name).query = none := by
  rw [query_under, h.pathAndQuery_tidy]
  rfl

end Url

/-! ## Requests -/

namespace Call

/-- The name of the table or the procedure that a call is for. -/
def name : Call → String
  | .rpc name => name
  | .select t .. | .upsert t .. | .insert t _ => t.name

/-- Where tables and procedures are in a store: the segments before the name. -/
def place : Call → List String
  | .rpc _ => ["rest", "v1", "rpc"]
  | .select .. | .upsert .. | .insert .. => ["rest", "v1"]

theorem place_cases (call : Call) : call.place = ["rest", "v1"] ∨ call.place = ["rest", "v1", "rpc"] := by
  cases call with
  | rpc name => exact .inr rfl
  | select t columns limit => exact .inl rfl
  | upsert t row onConflict => exact .inl rfl
  | insert t row => exact .inl rfl

/-- The parameters of a call. -/
def fields : Call → List (String × String)
  | .select _ columns limit => [("select", columns), ("limit", toString limit)]
  | .upsert _ _ onConflict => [("on_conflict", onConflict)]
  | .rpc _ | .insert .. => []

/-- The schema that a call names, if it is for a table of one. -/
def schema? : Call → Option String
  | .rpc _ => none
  | .select t .. | .upsert t .. | .insert t _ => t.schema

end Call

/-- An address is that of what the `call` is for, below the address of a store: one segment of the path stands for its
name, and the query has the parameters of the call and nothing else. -/
structure Url.GoesTo (url base : Url) (call : Call) : Prop where
  server : url.SameServer base
  path : ∃ segment, url.path = base.path.dropLast ++ call.place ++ [segment] ∧
    decode segment.toList = Text.bytesOf call.name
  query : url.query = if call.fields = [] then none else some (String.ofList (Percent.form call.fields))

namespace RestClient

variable {c : RestClient} {base url url' : Url} {call call' : Call} {r r' : Request}

/-- The address of a client is that of the store at `base`: it can be read, and it has neither a query nor a fragment.
-/
structure LeadsTo (c : RestClient) (base : Url) : Prop where
  address : Url.ofString? (c.baseUrl ++ "/") = some base
  no_query : '?' ∉ c.baseUrl.toList
  no_fragment : '#' ∉ c.baseUrl.toList

/-- Whether the key and the schema of a call can be sent, as values of headers by `isHeaderValue`. -/
def CanSend (c : RestClient) (call : Call) : Prop :=
  isHeaderValue c.key ∧ ∀ schema ∈ call.schema?, isHeaderValue schema

instance (c : RestClient) (call : Call) : Decidable (c.CanSend call) := inferInstanceAs (Decidable (_ ∧ _))

theorem isHeaderValue_append (a b : String) : isHeaderValue (a ++ b) = (isHeaderValue a && isHeaderValue b) := by
  rw [isHeaderValue, Text.bytesOf_append, List.all_append]
  rfl

/-- A call is sent to the address of its place and its name, with headers of which only the schema may be none that
can be sent. -/
theorem exists_requestOf? (c : RestClient) (call : Call) : ∃ method headers body,
    c.requestOf? call =
      c.request? method (c.baseUrl ++ "/" ++ "/".intercalate call.place ++ "/" ++ call.name) call.fields headers body ∧
    ((headers.all fun h => isHeaderValue h.2) ↔ ∀ schema ∈ call.schema?, isHeaderValue schema) := by
  have htable (s : String) : c.baseUrl ++ "/rest/v1/" ++ s = c.baseUrl ++ "/" ++ "rest/v1" ++ "/" ++ s := by
    rw [show "/rest/v1/" = "/" ++ "rest/v1" ++ "/" by decide]
    simp only [String.append_assoc]
  have hprocedure (s : String) :
      c.baseUrl ++ "/rest/v1/rpc/" ++ s = c.baseUrl ++ "/" ++ "rest/v1/rpc" ++ "/" ++ s := by
    rw [show "/rest/v1/rpc/" = "/" ++ "rest/v1/rpc" ++ "/" by decide]
    simp only [String.append_assoc]
  have hprofile (key : String) (t : Table) :
      ((profile key t).all fun h => isHeaderValue h.2) ↔ ∀ schema ∈ t.schema, isHeaderValue schema := by
    cases hschema : t.schema <;> simp [profile, hschema]
  have hfixed : isHeaderValue bodyType.2 ∧ isHeaderValue "resolution=merge-duplicates,return=representation" ∧
      isHeaderValue "return=minimal" := by decide
  -- the headers that are always the same can be sent
  cases call with
  | rpc name =>
    refine ⟨.post, [bodyType], _, congrArg (c.request? _ · _ _ _) (hprocedure name), ?_⟩
    simp [Call.schema?, hfixed.1]
  | select t columns limit =>
    exact ⟨.get, profile "accept-profile" t, none, congrArg (c.request? _ · _ _ _) (htable t.name), hprofile _ t⟩
  | upsert t row onConflict =>
    refine ⟨.post, _, _, congrArg (c.request? _ · _ _ _) (htable t.name), ?_⟩
    rw [List.all_cons, List.all_cons, hfixed.1, hfixed.2.1]
    exact hprofile _ t
  | insert t row =>
    refine ⟨.post, _, _, congrArg (c.request? _ · _ _ _) (htable t.name), ?_⟩
    rw [List.all_cons, List.all_cons, hfixed.1, hfixed.2.2]
    exact hprofile _ t

/-- The address of the place of a call, which a slash ends. -/
def root (base : Url) (call : Call) : Url := base.under ("/".intercalate call.place ++ "/")

theorem path_root (base : Url) (call : Call) : (root base call).path = base.path.dropLast ++ call.place ++ [""] := by
  have hpieces : ((Url.cutSlashes (Url.pathAndQuery (Url.tidy ("/".intercalate call.place ++ "/").toList)).1).map
      (encode inPath)) = (call.place ++ [""]).map String.toList := by
    rcases call.place_cases with hplace | hplace <;> rw [hplace] <;> decide
  have hdots : ∀ s ∈ (call.place ++ [""]).map String.toList, Url.dotsOf s ≠ ['.'] ∧ Url.dotsOf s ≠ ['.', '.'] := by
    rcases call.place_cases with hplace | hplace <;> rw [hplace] <;> decide
  rw [root, Url.path_under, Url.segmentsAfter, hpieces, Url.resolve_of_forall hdots, List.reverse_reverse,
    ← List.map_append, List.map_map, List.append_assoc]
  simp [Function.comp_def]

/-- What is sent for a call, and that it is sent just if its key and schema can be. -/
theorem map_url_requestOf? (hbase : c.LeadsTo base) (call : Call) :
    (c.requestOf? call).map Request.url =
      if c.CanSend call then
        some (if call.fields.isEmpty then (root base call).under call.name
          else ((root base call).under call.name).addFields call.fields)
      else none := by
  obtain ⟨method, headers, body, hrequest, hheaders⟩ := c.exists_requestOf? call
  have hplace : '?' ∉ ("/".intercalate call.place).toList ∧ '#' ∉ ("/".intercalate call.place).toList := by
    rcases call.place_cases with hplace | hplace <;> rw [hplace] <;> decide
  have hroot : Url.ofString? (c.baseUrl ++ "/" ++ "/".intercalate call.place ++ "/") = some (root base call) := by
    have hassoc (s : String) : c.baseUrl ++ "/" ++ s ++ "/" = c.baseUrl ++ "/" ++ (s ++ "/") := String.append_assoc
    rw [hassoc, Url.ofString?_append_slash hbase.address hbase.no_query hbase.no_fragment]
    rfl
  have haddress : Url.ofString? (c.baseUrl ++ "/" ++ "/".intercalate call.place ++ "/" ++ call.name) =
      some ((root base call).under call.name) := by
    refine Url.ofString?_append_slash hroot ?_ ?_ call.name
    · simp only [String.toList_append, List.mem_append, not_or]
      exact ⟨⟨hbase.no_query, by decide⟩, hplace.1⟩
    · simp only [String.toList_append, List.mem_append, not_or]
      exact ⟨⟨hbase.no_fragment, by decide⟩, hplace.2⟩
  rw [hrequest, request?, haddress]
  have hsent : ((c.credentials ++ headers).all fun h => isHeaderValue h.2) ↔ c.CanSend call := by
    have hbearer : isHeaderValue "Bearer " = true := by decide
    rw [List.all_append, Bool.and_eq_true, hheaders, CanSend]
    simp [credentials, isHeaderValue_append, hbearer]
  simp only [Option.bind_eq_bind, Option.bind_some, hsent]
  split <;> rfl

/-- The address of a request that is sent, by `requestOf?`. -/
theorem url_of_requestOf? (hbase : c.LeadsTo base) (h : c.requestOf? call = some r) :
    r.url = if call.fields.isEmpty then (root base call).under call.name
      else ((root base call).under call.name).addFields call.fields := by
  have hmap := map_url_requestOf? hbase call
  rw [h, Option.map_some] at hmap
  split at hmap
  · exact Option.some.inj hmap
  · cases hmap

/-- A request goes to where its call is meant for just if the name `IsSegment`. -/
theorem goesTo_iff (hbase : c.LeadsTo base) (h : c.requestOf? call = some r) :
    r.url.GoesTo base call ↔ Url.IsSegment call.name := by
  have hurl := url_of_requestOf? hbase h
  -- neither the name nor the parameters change the server, and the parameters leave the path alone
  have hserver : r.url.SameServer base := by
    have hunder := (Url.under_sameServer (root base call) call.name).trans (Url.under_sameServer base _)
    rw [hurl]
    split
    · exact hunder
    · exact (Url.addFields_sameServer _ _).trans hunder
  have hpath : r.url.path = ((root base call).under call.name).path := by
    rw [hurl]
    split
    · rfl
    · exact Url.path_addFields _ _
  have hroot : (root base call).path.dropLast = base.path.dropLast ++ call.place := by
    rw [path_root, List.dropLast_concat]
  have hiff := Url.exists_segment_under_iff (root base call) call.name
  rw [hroot, ← hpath] at hiff
  constructor
  · exact fun hgoes => hiff.mp hgoes.path
  · intro hname
    have hnone := hname.query_under_eq_none (root base call)
    refine ⟨hserver, hiff.mpr hname, ?_⟩
    rw [hurl]
    simp only [List.isEmpty_iff]
    split
    · exact hnone
    · exact Url.query_addFields hnone _

/-- Calls that are sent to one path are for one thing. -/
theorem name_eq_of_path_eq (h : url.GoesTo base call) (h' : url'.GoesTo base call') (hpath : url.path = url'.path) :
    call.place = call'.place ∧ call.name = call'.name := by
  obtain ⟨segment, heq, hdecode⟩ := h.path
  obtain ⟨segment', heq', hdecode'⟩ := h'.path
  rw [heq, heq', List.append_assoc, List.append_assoc] at hpath
  obtain ⟨hplace, hsegment⟩ := List.append_inj' (List.append_cancel_left hpath) rfl
  obtain rfl := (List.cons.inj hsegment).1
  exact ⟨hplace, Text.eq_of_bytesOf_eq (hdecode.symm.trans hdecode')⟩

/-- A client whose address has no query and no fragment sends every call whose key and schema can be sent, whatever it
is for. The request goes to where the call is meant for just if its name can stand in the path as it is; two calls of
which this holds are sent to one path only if they are for the same table or the same procedure. -/
theorem request_goesTo_iff_isSegment (hbase : c.LeadsTo base) :
    (∀ call, (c.requestOf? call).isSome ↔ c.CanSend call) ∧
    (∀ call r, c.requestOf? call = some r → (r.url.GoesTo base call ↔ Url.IsSegment call.name)) ∧
    ∀ call call' r r', c.requestOf? call = some r → c.requestOf? call' = some r' →
      Url.IsSegment call.name → Url.IsSegment call'.name → r.url.path = r'.url.path →
        call.place = call'.place ∧ call.name = call'.name := by
  refine ⟨fun call => ?_, fun call r h => goesTo_iff hbase h, ?_⟩
  · rw [← Option.isSome_map (f := Request.url), map_url_requestOf? hbase]
    split <;> simp_all
  · intro call call' r r' h h' hname hname' hpath
    exact name_eq_of_path_eq ((goesTo_iff hbase h).mpr hname)
      ((goesTo_iff hbase h').mpr hname') hpath

theorem request_goesTo_notes : ∃ base r, LeadsTo ⟨"http://127.0.0.1:5000", "k"⟩ base ∧
    requestOf? ⟨"http://127.0.0.1:5000", "k"⟩ (.select ⟨some "kitenga", "notes"⟩ "*" 1) = some r ∧
    r.url.GoesTo base (.select ⟨some "kitenga", "notes"⟩ "*" 1) := by
  have hname : Url.IsSegment "notes" :=
    ⟨by simp, by simp, by decide, by decide, Percent.not_hasEscape (by decide)⟩
  have hbase : LeadsTo ⟨"http://127.0.0.1:5000", "k"⟩ ⟨.http, "127.0.0.1", 5000, [""], none⟩ :=
    ⟨by decide, by decide, by decide⟩
  obtain ⟨hsends, hgoes, -⟩ := request_goesTo_iff_isSegment hbase
  obtain ⟨r, hr⟩ := Option.isSome_iff_exists.mp
    ((hsends (.select ⟨some "kitenga", "notes"⟩ "*" 1)).mpr (by decide))
  exact ⟨_, r, hbase, hr, (hgoes _ r hr).mpr hname⟩

/-- A table whose name has a slash in it is sought where a procedure is. -/
theorem not_request_goesTo_wipe : ∃ base r r', LeadsTo ⟨"http://127.0.0.1:5000", "k"⟩ base ∧
    requestOf? ⟨"http://127.0.0.1:5000", "k"⟩ (.select ⟨none, "rpc/wipe"⟩ "*" 1) = some r ∧
    requestOf? ⟨"http://127.0.0.1:5000", "k"⟩ (.rpc "wipe") = some r' ∧ r.url.path = r'.url.path ∧
    ¬r.url.GoesTo base (.select ⟨none, "rpc/wipe"⟩ "*" 1) := by
  have hpath : (requestOf? ⟨"http://127.0.0.1:5000", "k"⟩ (.select ⟨none, "rpc/wipe"⟩ "*" 1)).map (·.url.path) =
      some ["rest", "v1", "rpc", "wipe"] := by decide
  have hpath' : (requestOf? ⟨"http://127.0.0.1:5000", "k"⟩ (.rpc "wipe")).map (·.url.path) =
      some ["rest", "v1", "rpc", "wipe"] := by decide
  obtain ⟨r, hr, hrpath⟩ := Option.map_eq_some_iff.mp hpath
  obtain ⟨r', hr', hrpath'⟩ := Option.map_eq_some_iff.mp hpath'
  refine ⟨⟨.http, "127.0.0.1", 5000, [""], none⟩, r, r', ⟨by decide, by decide, by decide⟩, hr, hr',
    hrpath.trans hrpath'.symm, ?_⟩
  rintro ⟨-, ⟨segment, heq, -⟩, -⟩
  rw [hrpath] at heq
  simp [Call.place] at heq

end RestClient
end PayloadAtlas
