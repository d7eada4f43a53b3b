import IpVault.Lib.Like
import IpVault.Records.Pages
import IpVault.Records.Spelling

set_option autoImplicit false

/-! # The address filter of the record listing

`list_ips` looks for the text of the `ip` filter in the stored addresses. A text that can be read as an
address or a network is first replaced by its canonical text, so that any spelling of a stored address
finds it. A fragment of a stored address may read as a network, too. `address_filter_iff` says which
fragments are lost in this way.
-/

namespace IpVault

open Lib

/-- `std` prints an address without capitals, and with no character that `LIKE` reads as a wildcard:
in digits, the letters from `a` to `f`, dots and colons. -/
def Env.PrintsPlain (env : Env) : Prop :=
  ∀ ip : IpAddr, (env.show_ip ip).toList.all Text.literal = true

/-- A request with an address filter or none, for one page that holds every membership. -/
def ip_request (ip : Option String) (include_deleted : Option Bool) (w : World) : QueryFilters :=
  { ip := ip
    include_deleted := include_deleted
    limit := some w.memberships.rows.length }

/-- The answer to the request shows the record. -/
def ShowsRecord (ctx : Ctx) (order : RowOrder) (ip : Option String) (include_deleted : Option Bool)
    (v : Vault) (id : Uuid) : Prop :=
  ∃ data, (list_ips ctx order (ip_request ip include_deleted v.toWorld)).run database v =
      (.ok (.items data), v) ∧ ∃ row ∈ data, row.id = id

/-- The text is a fragment of the address, or a spelling of its network. -/
def Describes (env : Env) (s address : String) : Prop :=
  (s ≠ "" ∧ Text.contains address s = true) ∨
    ∃ net net', env.parse_network s = some net ∧ env.parse_network address = some net' ∧
      net.Same net'

/-- The text is a fragment of the address, but it is also a spelling of a network, whose canonical text
is none. -/
def Misread (env : Env) (s address : String) : Prop :=
  s ≠ "" ∧ Text.contains address s = true ∧
    ∃ net, env.parse_network s = some net ∧ Text.contains address (env.show_network net) = false

section Filter

variable {env : Env} {s address : String}

theorem Env.PrintsPlain.network (henv : env.PrintsPlain) (net : IpNetwork) :
    (env.show_network net).toList.all Text.literal = true := by
  unfold Env.show_network
  by_cases h : net.is_single_host = true
  · rw [if_pos h]
    exact henv _
  · have hdigits : (toString net.plen).toList.all Text.literal = true := by
      refine List.all_eq_true.mpr fun c hc => ?_
      exact Text.literal_of_isDigit (Decimal.isDigit_of_mem_write hc)
    rw [if_neg h, String.toList_append, String.toList_append, List.all_append, List.all_append,
      henv, hdigits]
    rfl

/-- A spelling of the network of a canonical address comes to that address. -/
theorem show_of_same {net net' : IpNetwork} (henv : env.ReadsPrinted) (ha : env.Canonical address)
    (hread : env.parse_network address = some net') (h : net.Same net') :
    env.show_network net = address := by
  obtain ⟨t, canonical, -, rfl⟩ := ha
  obtain rfl := Option.some.inj ((henv.parse_show canonical).symm.trans hread)
  rw [IpNetwork.same_iff_masked, IpNetwork.masked_masked] at h
  rw [← env.show_network_masked net, h, env.show_network_masked]

/-- What `LIKE` finds of a filter text: all that it describes, unless it is misread. -/
theorem like_normalize_iff (henv : env.PrintsPlain) (hreads : env.ReadsPrinted)
    (ha : env.Canonical address) :
    (Describes env s address → Text.like address (normalize_ip_or_cidr env s) = true) ↔
      ¬ Misread env s address := by
  have hplain : address.toList.all Text.literal = true := by
    obtain ⟨t, canonical, -, haddress⟩ := ha
    exact haddress ▸ henv.network canonical
  cases hread : env.parse_network s with
  | none =>
      rw [normalize_of_unread hread]
      -- A text that is no network is searched for as it is.
      have hfound : Describes env s address → Text.like address s = true := by
        rintro (⟨-, h⟩ | ⟨net, -, hnet, -⟩)
        · exact Text.like_of_contains h
        · rw [hread] at hnet
          cases hnet
      refine ⟨fun _ => ?_, fun _ => hfound⟩
      rintro ⟨-, -, net, hnet, -⟩
      rw [hread] at hnet
      cases hnet
  | some net =>
      -- One that is a network is searched for in its canonical form.
      rw [normalize_of_parse hread, Text.like_eq_contains hplain (henv.network net)]
      constructor
      · rintro hfound ⟨hne, hfragment, net', hnet', hnone⟩
        obtain rfl := Option.some.inj (hread.symm.trans hnet')
        rw [hfound (.inl ⟨hne, hfragment⟩)] at hnone
        cases hnone
      · rintro hread_right (⟨hne, hfragment⟩ | ⟨net', stored, hnet', hstored, hsame⟩)
        · by_contra hnone
          exact hread_right ⟨hne, hfragment, net, hread, Bool.eq_false_iff.mpr hnone⟩
        · obtain rfl := Option.some.inj (hread.symm.trans hnet')
          rw [show_of_same hreads ha hstored hsame]
          exact Text.contains_iff.mpr (List.infix_refl _)

end Filter

section Listing

variable {ctx : Ctx} {order : RowOrder} {v : Vault}

/-- The answer shows what matches. -/
theorem showsRecord_iff (ip : Option String) (include_deleted : Option Bool) (id : Uuid) :
    ShowsRecord ctx order ip include_deleted v id ↔
      ∃ row ∈ (ip_request ip include_deleted v.toWorld).matching ctx v.toWorld,
        row.1.ip_record_id = id := by
  have hwhole : (ip_request ip include_deleted v.toWorld).Whole v.toWorld :=
    ⟨rfl, rfl, rfl, Nat.le_refl _⟩
  unfold ShowsRecord
  rw [run_whole hwhole rfl rfl]
  generalize ip_request ip include_deleted v.toWorld = f
  constructor
  · rintro ⟨data, hdata, r, hr, hid⟩
    obtain rfl := ListReply.items.inj (Except.ok.inj (Prod.mk.inj hdata).1)
    obtain ⟨row, hrow, hresponse⟩ := List.mem_filterMap.mp hr
    have hmatching := (order.perm _).subset hrow
    obtain ⟨-, -, r', hr', -, -, hrecord⟩ := response_of_joined ctx (mem_matching hmatching)
    obtain rfl := Option.some.inj (hresponse.symm.trans hr')
    exact ⟨row, hmatching, hrecord.trans hid⟩
  · rintro ⟨row, hrow, hid⟩
    obtain ⟨-, -, r, hr, -, -, hrecord⟩ := response_of_joined ctx (mem_matching hrow)
    refine ⟨_, rfl, r, List.mem_filterMap.mpr ⟨row, ?_, hr⟩, hrecord.symm.trans hid⟩
    exact (order.perm _).mem_iff.mpr hrow

/-- The filter takes from the listing what `LIKE` does not find. -/
theorem mem_matching_ip {ip : String} {include_deleted : Option Bool} {row : MemberRow}
    {r : IpRecord} (hrow : row.2 = some r) :
    row ∈ (ip_request (some ip) include_deleted v.toWorld).matching ctx v.toWorld ↔
      row ∈ (ip_request none include_deleted v.toWorld).matching ctx v.toWorld ∧
        (Text.is_empty ip = true ∨
          Text.like r.target_address (normalize_ip_or_cidr ctx.env (Text.trim ip)) = true) := by
  have hselects : (ip_request (some ip) include_deleted v.toWorld).selects ctx.env ctx.now none r =
      ((ip_request none include_deleted v.toWorld).selects ctx.env ctx.now none r &&
        (Text.is_empty ip ||
          Text.like r.target_address (normalize_ip_or_cidr ctx.env (Text.trim ip)))) := by
    unfold QueryFilters.selects QueryFilters.selects_by QueryFilters.nonempty_text ip_request
    cases hempty : Text.is_empty ip <;>
      simp [Option.filter, hempty, QueryFilters.with_deleted, QueryFilters.in_window]
  have hrequest : ∀ ip, row ∈ (ip_request ip include_deleted v.toWorld).matching ctx v.toWorld ↔
      row ∈ v.joined ∧
        ((ip_request none include_deleted v.toWorld).admits ctx v.toWorld none row.1.group_id &&
          (ip_request ip include_deleted v.toWorld).selects ctx.env ctx.now none r) = true := by
    intro ip
    have hmatching :=
      @matching_of_valid ctx (ip_request ip include_deleted v.toWorld) v none none rfl rfl
    rw [hmatching, List.mem_filter]
    unfold QueryFilters.lists
    rw [hrow]
    rfl
  rw [hrequest, hrequest, hselects, Bool.and_eq_true, Bool.and_eq_true, Bool.and_eq_true,
    Bool.or_eq_true, and_assoc, and_assoc]

end Listing

/-- **The address filter.** A record with a canonical address that the listing shows is found by every
text that describes its address, if and only if the text is not misread. -/
theorem address_filter_iff (ctx : Ctx) (order : RowOrder) (include_deleted : Option Bool) (v : Vault)
    (ip : String) (r : IpRecord) (henv : ctx.env.PrintsPlain) (hreads : ctx.env.ReadsPrinted)
    (hr : r ∈ v.records)
    (hcanonical : ctx.env.Canonical r.target_address)
    (hlisted : ShowsRecord ctx order none include_deleted v r.id) :
    (Describes ctx.env (Text.trim ip) r.target_address →
        ShowsRecord ctx order (some ip) include_deleted v r.id) ↔
      ¬ Misread ctx.env (Text.trim ip) r.target_address := by
  have hfound : ShowsRecord ctx order (some ip) include_deleted v r.id ↔
      (Text.is_empty ip = true ∨
        Text.like r.target_address (normalize_ip_or_cidr ctx.env (Text.trim ip)) = true) := by
    have record : ∀ row ∈ v.joined, row.1.ip_record_id = r.id → row.2 = some r := by
      intro row hrow hid
      obtain ⟨r', hr', hrecord, hid'⟩ := v.record_of_joined hrow
      rw [hrecord, Table.eq_of_key hr' hr (hid'.trans hid)]
    rw [showsRecord_iff]
    constructor
    · rintro ⟨row, hrow, hid⟩
      exact ((mem_matching_ip (record row (mem_matching hrow) hid)).mp hrow).2
    · intro hlike
      obtain ⟨row, hrow, hid⟩ := (showsRecord_iff none include_deleted r.id).mp hlisted
      have hrecord := record row (mem_matching hrow) hid
      exact ⟨row, (mem_matching_ip hrecord).mpr ⟨hrow, hlike⟩, hid⟩
  rw [hfound, ← like_normalize_iff henv hreads hcanonical]
  refine imp_congr_right fun hdescribes => ⟨fun h => h.elim (fun hempty => ?_) id, Or.inr⟩
  -- Without a filter text there is nothing to describe.
  have hnothing : Text.trim ip = "" := by
    have hchars : ip.toList = [] := List.isEmpty_iff.mp hempty
    unfold Text.trim
    rw [hchars]
    rfl
  rw [hnothing] at hdescribes ⊢
  rcases hdescribes with ⟨hne, -⟩ | ⟨net, stored, hnet, hstored, hsame⟩
  · exact absurd rfl hne
  · rw [normalize_of_parse hnet, show_of_same hreads hcanonical hstored hsame]
    exact Text.like_of_contains (Text.contains_iff.mpr (List.infix_refl _))

/-! ## A fragment of a range -/

theorem Env.printsPlain_decimal : Env.decimal.PrintsPlain := by
  intro ip
  show (String.ofList (show_decimal ip)).toList.all Text.literal = true
  rw [String.toList_ofList, List.all_eq_true]
  intro c hc
  cases ip with
  | v4 a =>
      rcases Decimal.mem_write_bytes hc with rfl | hdigit
      · rfl
      · exact Text.literal_of_isDigit hdigit
  | v6 a =>
      rcases Decimal.mem_write_bytes hc with rfl | hdigit
      · rfl
      · exact Text.literal_of_isDigit hdigit

/-- The sensor, where addresses are in decimal. -/
def Ctx.decimal_sensor : Ctx := { Ctx.sensor with env := .decimal }

/-- A range is banned. -/
def Vault.ranged : Vault := Vault.sample.after (.upsert_txn (.sample 5 "10.1.0.0/16" 2 "bans"))

/-- The address up to a digit of the prefix length reads as a far wider network. -/
theorem fragment_not_found :
    ShowsRecord .decimal_sensor .newest none none .ranged 3 ∧
      Describes .decimal (Text.trim "10.1.0.0/1") "10.1.0.0/16" ∧
      ¬ ShowsRecord .decimal_sensor .newest (some "10.1.0.0/1") none .ranged 3 := by
  rw [showsRecord_iff, showsRecord_iff]
  refine ⟨by decide +kernel, .inl (by decide +kernel), by decide +kernel⟩

/-- A fragment that reads as nothing is found, and so is the range by an address within it. -/
theorem address_filter_iff_found :
    ShowsRecord .decimal_sensor .newest (some "1.0.0") none .ranged 3 ∧
      ShowsRecord .decimal_sensor .newest (some "10.1.2.3/16") none .ranged 3 := by
  have hlisted : ShowsRecord .decimal_sensor .newest none none .ranged 3 := by
    rw [showsRecord_iff]
    decide +kernel
  have hcanonical : Env.decimal.Canonical "10.1.0.0/16" :=
    ⟨"10.1.0.0/16", ⟨.v4 0x0A010000#32, 16, by decide⟩, by decide +kernel, by decide +kernel⟩
  have hrecord : ⟨3, "10.1.0.0/16", none, false, 5, 5, 5, false, none, none⟩ ∈
      Vault.ranged.records := by decide +kernel
  constructor
  · have hread : Env.decimal.parse_network (Text.trim "1.0.0") = none := by decide +kernel
    refine (address_filter_iff .decimal_sensor .newest none .ranged "1.0.0" _ Env.printsPlain_decimal
      Env.readsPrinted_decimal hrecord hcanonical hlisted).mpr ?_ (.inl (by decide +kernel))
    rintro ⟨-, -, net, hnet, -⟩
    rw [show Ctx.decimal_sensor.env = Env.decimal from rfl, hread] at hnet
    cases hnet
  · have hdescribes : Describes .decimal (Text.trim "10.1.2.3/16") "10.1.0.0/16" := by
      refine .inr ⟨⟨.v4 0x0A010203#32, 16, by decide⟩, ⟨.v4 0x0A010000#32, 16, by decide⟩, ?_, ?_, ?_⟩
      · decide +kernel
      · decide +kernel
      · exact ⟨by decide +kernel, rfl⟩
    have hfragment : Text.contains "10.1.0.0/16" (Text.trim "10.1.2.3/16") = false := by decide +kernel
    refine (address_filter_iff .decimal_sensor .newest none .ranged "10.1.2.3/16" _
      Env.printsPlain_decimal Env.readsPrinted_decimal hrecord hcanonical hlisted).mpr ?_ hdescribes
    rintro ⟨-, hcontains, -⟩
    rw [hfragment] at hcontains
    cases hcontains

end IpVault
