import SourceArchive.Archive.Layout
import SourceArchive.Number.Binary64
import SourceArchive.Settings.Fault
import SourceArchive.Text.Identifier

/-!
# Settings of the checks

Thresholds and keywords of the checks on an annotated archive, and the tiers of the verdict.
-/

namespace SourceArchive

/-- A function that reads a shared context, and the context. -/
structure Accessor where
  accessor : Text
  context : Text
deriving Repr, DecidableEq

def knownAccessors : List Accessor := [
  ⟨"useAuth", "AuthContext"⟩, ⟨"useWallet", "WalletContext"⟩, ⟨"useXRPL", "XRPLContext"⟩,
  ⟨"useTheme", "ThemeContext"⟩, ⟨"useSession", "SessionContext"⟩, ⟨"useUser", "UserContext"⟩,
  ⟨"useToast", "ToastContext"⟩, ⟨"useRouter", "NextRouter"⟩, ⟨"usePathname", "NextRouter"⟩,
  ⟨"useSearchParams", "NextRouter"⟩, ⟨"useParams", "NextRouter"⟩]

/-- The least scores of the verdicts. -/
structure Tiers where
  excellent : Binary64 := .ofInt 95
  good : Binary64 := .ofInt 85
  fair : Binary64 := .ofInt 70
deriving Repr, DecidableEq

/-- Tiers go down from at most 100 to at least 0. -/
def Tiers.check (t : Tiers) : Except SettingsFault Unit :=
  if (Binary64.ofInt 100).ge t.excellent && t.excellent.ge t.good && t.good.ge t.fair
      && t.fair.ge .zero then .ok ()
  else .error .tiersOutOfOrder

structure CheckSettings where
  checksPerSection : UInt64 := 8
  /-- How far the counts of state variables may lie apart. -/
  stateTolerance : Nat := 2
  /-- How many keywords of the other flow are tolerated. -/
  flowKeywordThreshold : Nat := 2
  /-- The share of tree items that may be missing from the code. -/
  phantomRatio : Binary64 := .ofDecimal false 4 (-1)
  vagueTypes : List Text := Layout.vagueTypes
  /-- How many characters of a declaration are quoted. -/
  typeContextWidth : Nat := 70
  affiliateKeywords : List Text := ["affiliate", "referral", "commission", "referral-link", "refer-earn",
    "affiliate-dashboard", "affiliatecount", "affiliate_count", "referral_code"]
  vendorKeywords : List Text := ["vendor dashboard", "pos terminal", "point-of-sale", "inventory manage",
    "barcode scan", "staff-management"]
  affiliateRoutes : List Text := ["/affiliate-dashboard", "/affiliate/"]
  /-- The path fragment that lets an affiliate route be shared. -/
  vendorRoute : Text := "/vendor"
  contextAccessors : List Accessor := knownAccessors
  tiers : Tiers := {}
deriving Repr, DecidableEq

/-- The first fault of the settings, if there is one. -/
def CheckSettings.check (s : CheckSettings) : Except SettingsFault Unit := do
  if s.checksPerSection = 0 then throw .noChecks
  if !(s.phantomRatio.gt .zero && (Binary64.ofInt 1).ge s.phantomRatio) then throw .phantomRatioOutOfRange
  match s.contextAccessors.find? fun a => !a.accessor.isIdentifier with
  | some bad => throw (.badAccessor bad.accessor)
  | none => s.tiers.check

end SourceArchive
