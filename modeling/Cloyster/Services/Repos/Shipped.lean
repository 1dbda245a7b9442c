import Cloyster.Services.Repos.Config

/-! The conf files of the repository's own `repos` directory, as GLib reads them.
Every file is a table with one row for each group, whose keys always come in one
order. All the groups are well formed, and no group name contains a digit. -/

namespace Cloyster

open Lib

/-- One group of a shipped conf file. -/
structure ConfRow where
  group : String
  name : String
  filename : String
  mirrorRepo : Option String := none
  mirrorGpgkey : Option String := none
  upstreamRepo : String
  upstreamGpgkey : Option String := none

/-- The keys of a group in file order. -/
def ConfRow.entries (row : ConfRow) : OrdMap String String where
  entries := ("name", row.name) :: ("filename", row.filename) ::
    ((row.mirrorRepo.map ("mirror.repo", ·)).toList ++
      ((row.mirrorGpgkey.map ("mirror.gpgkey", ·)).toList ++
        ("upstream.repo", row.upstreamRepo) ::
          (row.upstreamGpgkey.map ("upstream.gpgkey", ·)).toList))
  nodup := by
    cases row.mirrorRepo <;> cases row.mirrorGpgkey <;> cases row.upstreamGpgkey <;> simp

/-- `repos/repos.conf`. -/
def reposRows : List ConfRow := [
  { group := "beegfs"
    name := "BeeGFS"
    filename := "beegfs.repo"
    mirrorRepo := some "beegfs/{beegfsVersion}/dists/rhel{releasever}/"
    mirrorGpgkey := some "beegfs/{beegfsVersion}/gpg/GPG-KEY-beegfs"
    upstreamRepo := "https://www.beegfs.io/release/{beegfsVersion}/dists/rhel{releasever}/"
    upstreamGpgkey := some "https://www.beegfs.io/release/{beegfsVersion}/gpg/GPG-KEY-beegfs" },
  { group := "grafana"
    name := "grafana"
    filename := "grafana.repo"
    mirrorRepo := some "grafana/"
    upstreamRepo := "https://rpm.grafana.com/"
    upstreamGpgkey := some "https://rpm.grafana.com/gpg.key" },
  { group := "influxdata"
    name := "InfluxData Repository - Stable"
    filename := "influxdata.repo"
    mirrorRepo := some "influxdata/rhel/{releasever}/{arch}/stable/"
    mirrorGpgkey := some "influxdata/influxdata-archive_compat.key"
    upstreamRepo := "https://repos.influxdata.com/rhel/{releasever}/{arch}/stable/"
    upstreamGpgkey := some "https://repos.influxdata.com/influxdata-archive_compat.key" },
  { group := "oneAPI"
    name := "Intel oneAPI repository"
    filename := "intel.repo"
    mirrorRepo := some "oneAPI/"
    upstreamRepo := "https://yum.repos.intel.com/oneapi/"
    upstreamGpgkey := some
        "https://yum.repos.intel.com/intel-gpg-keys/GPG-PUB-KEY-INTEL-SW-PRODUCTS-2019.PUB" },
  { group := "zabbix"
    name := "zabbix"
    filename := "zabbix.repo"
    mirrorRepo := some "zabbix/zabbix/{zabbixVersion}/rhel/{releasever}/{arch}/"
    mirrorGpgkey := some "zabbix/RPM-GPG-KEY-ZABBIX"
    upstreamRepo := "https://repo.zabbix.com/zabbix/{zabbixVersion}/rhel/{releasever}/{arch}/"
    upstreamGpgkey := some "https://repo.zabbix.com/RPM-GPG-KEY-ZABBIX" },
  { group := "elrepo"
    name := "elrepo"
    filename := "elrepo.repo"
    mirrorRepo := some "elrepo/elrepo/el{releasever}/{arch}/"
    upstreamRepo := "https://elrepo.org/linux/elrepo/el{releasever}/{arch}/"
    upstreamGpgkey := some "https://elrepo.org/RPM-GPG-KEY-elrepo.org" },
  { group := "rpmfusion"
    name := "rpmfusion"
    filename := "rpmfusion.repo"
    mirrorRepo := some "rpmfusion/free/el/updates/{releasever}/{arch}/"
    mirrorGpgkey := some "rpmfusion/free/el/RPM-GPG-KEY-rpmfusion-free-el-{releasever}"
    upstreamRepo := "https://download1.rpmfusion.org/free/el/updates/{releasever}/{arch}/"
    upstreamGpgkey := some
        "https://download1.rpmfusion.org/free/el/RPM-GPG-KEY-rpmfusion-free-el-{releasever}" },
  { group := "epel-debuginfo"
    name := "Extra Packages for Enterprise Linux {releasever} - {arch} - Debug"
    filename := "epel.repo"
    mirrorRepo := some "epel/{releasever}/Everything/{arch}/debug/"
    mirrorGpgkey := some "epel/RPM-GPG-KEY-EPEL-{releasever}"
    upstreamRepo := 
        "https://download.fedoraproject.org/pub/epel/{releasever}/Everything/{arch}/debug/"
    upstreamGpgkey := some
        "https://download.fedoraproject.org/pub/epel/RPM-GPG-KEY-EPEL-{releasever}" },
  { group := "epel-source"
    name := "Extra Packages for Enterprise Linux {releasever} - {arch} - Source"
    filename := "epel.repo"
    mirrorRepo := some "epel/{releasever}/Everything/source/tree/"
    mirrorGpgkey := some "epel/RPM-GPG-KEY-EPEL-{releasever}"
    upstreamRepo := 
        "https://download.fedoraproject.org/pub/epel/{releasever}/Everything/source/tree/"
    upstreamGpgkey := some
        "https://download.fedoraproject.org/pub/epel/RPM-GPG-KEY-EPEL-{releasever}" },
  { group := "epel"
    name := "Extra Packages for Enterprise Linux {releasever} - {arch}"
    filename := "epel.repo"
    mirrorRepo := some "epel/{releasever}/Everything/{arch}/"
    mirrorGpgkey := some "epel/RPM-GPG-KEY-EPEL-{releasever}"
    upstreamRepo := "https://download.fedoraproject.org/pub/epel/{releasever}/Everything/{arch}/"
    upstreamGpgkey := some
        "https://download.fedoraproject.org/pub/epel/RPM-GPG-KEY-EPEL-{releasever}" },
  { group := "OpenHPC"
    name := "OpenHPC ({ohpcVersion})"
    filename := "OpenHPC.repo"
    mirrorRepo := some "openhpc/{ohpcVersion}/EL_{releasever}/"
    upstreamRepo := "https://repos.openhpc.community/OpenHPC/{ohpcVersion}/EL_{releasever}/" },
  { group := "OpenHPC-Updates"
    name := "OpenHPC Updates ({ohpcVersion})"
    filename := "OpenHPC.repo"
    mirrorRepo := some "openhpc/{ohpcVersion}/updates/EL_{releasever}/"
    upstreamRepo := 
        "https://repos.openhpc.community/OpenHPC/{ohpcVersion}/updates/EL_{releasever}/" },
  { group := "nvhpc"
    name := "NVIDIA HPC SDK"
    filename := "nvidia.repo"
    mirrorRepo := some "nvhpc/hpc-sdk/rhel/{arch}/"
    mirrorGpgkey := some "nvhpc/RPM-GPG-KEY-NVIDIA-HPC-SDK"
    upstreamRepo := "https://developer.download.nvidia.com/hpc-sdk/rhel/{arch}/"
    upstreamGpgkey := some
        "https://developer.download.nvidia.com/hpc-sdk/rhel/RPM-GPG-KEY-NVIDIA-HPC-SDK" },
  { group := "xcat-core"
    name := "xCAT 2 Core packages"
    filename := "xcat-core.repo"
    upstreamRepo := "http://xcat.org/files/xcat/repos/yum/devel/core-snap/"
    upstreamGpgkey := some
        "http://xcat.org/files/xcat/repos/yum/devel/core-snap/repodata/repomd.xml.key" },
  { group := "xcat-dep"
    name := "xCAT 2 depedencies"
    filename := "xcat-deps.repo"
    upstreamRepo := "http://xcat.org/files/xcat/repos/yum/devel/xcat-dep/rh{releasever}/{arch}/"
    upstreamGpgkey := some
        "http://xcat.org/files/xcat/repos/yum/devel/xcat-dep/rh{releasever}/{arch}/repodata/repomd.xml.key" },
  { group := "doca"
    name := "NVIDIA DOCA Repository - RHEL rhel{osversion}"
    filename := "mlx-doca.repo"
    upstreamRepo := "https://linux.mellanox.com/public/repo/doca/latest/rhel{osversion}/{arch}/"
    upstreamGpgkey := some
        "https://linux.mellanox.com/public/repo/doca/latest/rhel{osversion}/{arch}/GPG-KEY-Mellanox.pub" }]

/-- `repos/alma.conf`. -/
def almaRows : List ConfRow := [
  { group := "AlmaLinux {releasever} - CRB"
    name := "AlmaLinux {releasever} - CRB"
    filename := "almalinux.repo"
    mirrorRepo := some "almalinux/{releasever}/CRB/{arch}/os/"
    mirrorGpgkey := some "almalinux/RPM-GPG-KEY-AlmaLinux-{releasever}"
    upstreamRepo := "https://repo.almalinux.org/almalinux/{releasever}/CRB/{arch}/os/"
    upstreamGpgkey := some
        "https://repo.almalinux.org/almalinux/RPM-GPG-KEY-AlmaLinux-{releasever}" },
  { group := "AlmaLinuxBaseOS"
    name := "AlmaLinux {releasever} - BaseOS"
    filename := "almalinux.repo"
    mirrorRepo := some "almalinux/{releasever}/BaseOS/{arch}/os/"
    mirrorGpgkey := some "almalinux/RPM-GPG-KEY-AlmaLinux-{releasever}"
    upstreamRepo := "https://repo.almalinux.org/almalinux/{releasever}/BaseOS/{arch}/os/"
    upstreamGpgkey := some
        "https://repo.almalinux.org/almalinux/RPM-GPG-KEY-AlmaLinux-{releasever}" }]

/-- `repos/oracle.conf`. -/
def oracleRows : List ConfRow := [
  { group := "ol{releasever}_codeready_builder"
    name := "Oracle Linux {releasever} CodeReady Builder ({arch})"
    filename := "oracle.repo"
    mirrorRepo := some "oracle/OL{releasever}/codeready/builder/{arch}/"
    upstreamRepo := 
        "https://yum.oracle.com/repo/OracleLinux/OL{releasever}/codeready/builder/{arch}/"
    upstreamGpgkey := some "https://yum.oracle.com/RPM-GPG-KEY-oracle-ol{releasever}" },
  { group := "OLBaseOS"
    name := "Oracle Linux {releasever} BaseOS Latest ({arch})"
    filename := "oracle.repo"
    mirrorRepo := some "oracle/OL{releasever}/baseos/latest/{arch}/"
    upstreamRepo := "https://yum.oracle.com/repo/OracleLinux/OL{releasever}/baseos/latest/{arch}/"
    upstreamGpgkey := some "https://yum.oracle.com/RPM-GPG-KEY-oracle-ol{releasever}" }]

/-- `repos/rhel.conf`. -/
def rhelRows : List ConfRow := [
  { group := "rhel-{releasever}-codeready-builder"
    name := "Red Hat Enterprise Linux {releasever} - CodeReady Builder ({arch})"
    filename := "rhel.repo"
    mirrorRepo := some "rhel/{releasever}/{arch}/codeready-builder/os/"
    mirrorGpgkey := some "rhel/RPM-GPG-KEY-redhat-release"
    upstreamRepo := 
        "https://cdn.redhat.com/content/dist/rhel/{releasever}/{arch}/codeready-builder/os/"
    upstreamGpgkey := some "https://www.redhat.com/security/data/fd431d51.txt" },
  { group := "rhel-{releasever}-baseos"
    name := "Red Hat Enterprise Linux {releasever} - BaseOS ({arch})"
    filename := "rhel.repo"
    mirrorRepo := some "rhel/{releasever}/{arch}/baseos/os/"
    mirrorGpgkey := some "rhel/RPM-GPG-KEY-redhat-release"
    upstreamRepo := "https://cdn.redhat.com/content/dist/rhel/{releasever}/{arch}/baseos/os/"
    upstreamGpgkey := some "https://www.redhat.com/security/data/fd431d51.txt" }]

/-- `repos/rocky-upstream.conf`. -/
def rockyUpstreamRows : List ConfRow := [
  { group := "baseos"
    name := "Rocky Linux {releasever} - BaseOS"
    filename := "rocky.repo"
    mirrorRepo := some "rocky/linux/{releasever}/BaseOS/{arch}/os/"
    mirrorGpgkey := some "rocky/linux/RPM-GPG-KEY-Rocky-{releasever}"
    upstreamRepo := "https://dl.rockylinux.org/pub/rocky/{releasever}/BaseOS/{arch}/os/"
    upstreamGpgkey := some "https://dl.rockylinux.org/pub/rocky/RPM-GPG-KEY-Rocky-{releasever}" },
  { group := "appstream"
    name := "Rocky Linux {releasever} - AppStream"
    filename := "rocky.repo"
    mirrorRepo := some "rocky/linux/{releasever}/AppStream/{arch}/os/"
    mirrorGpgkey := some "rocky/linux/RPM-GPG-KEY-Rocky-{releasever}"
    upstreamRepo := "https://dl.rockylinux.org/pub/rocky/{releasever}/AppStream/{arch}/os/"
    upstreamGpgkey := some "https://dl.rockylinux.org/pub/rocky/RPM-GPG-KEY-Rocky-{releasever}" },
  { group := "crb"
    name := "Rocky Linux {releasever} - CRB"
    filename := "rocky.repo"
    mirrorRepo := some "rocky/linux/{releasever}/CRB/{arch}/os/"
    mirrorGpgkey := some "rocky/linux/RPM-GPG-KEY-Rocky-{releasever}"
    upstreamRepo := "https://dl.rockylinux.org/pub/rocky/{releasever}/CRB/{arch}/os/"
    upstreamGpgkey := some "https://dl.rockylinux.org/pub/rocky/RPM-GPG-KEY-Rocky-{releasever}" },
  { group := "extras"
    name := "Rocky Linux {releasever} - Extras"
    filename := "rocky-extras.repo"
    mirrorRepo := some "rocky/linux/{releasever}/extras/{arch}/os/"
    mirrorGpgkey := some "rocky/linux/RPM-GPG-KEY-Rocky-{releasever}"
    upstreamRepo := "https://dl.rockylinux.org/pub/rocky/{releasever}/extras/{arch}/os/"
    upstreamGpgkey := some "https://dl.rockylinux.org/pub/rocky/RPM-GPG-KEY-Rocky-{releasever}" },
  { group := "plus"
    name := "Rocky Linux {releasever} - plus"
    filename := "rocky-extras.repo"
    mirrorRepo := some "rocky/linux/{releasever}/plus/{arch}/os/"
    mirrorGpgkey := some "rocky/linux/RPM-GPG-KEY-Rocky-{releasever}"
    upstreamRepo := "https://dl.rockylinux.org/pub/rocky/{releasever}/plus/{arch}/os/"
    upstreamGpgkey := some "https://dl.rockylinux.org/pub/rocky/RPM-GPG-KEY-Rocky-{releasever}" },
  { group := "devel"
    name := "Rocky Linux {releasever} - Devel"
    filename := "rocky-devel.repo"
    mirrorRepo := some "rocky/linux/{releasever}/devel/{arch}/os/"
    mirrorGpgkey := some "rocky/linux/RPM-GPG-KEY-Rocky-{releasever}"
    upstreamRepo := "https://dl.rockylinux.org/pub/rocky/{releasever}/devel/{arch}/os/"
    upstreamGpgkey := some "https://dl.rockylinux.org/pub/rocky/RPM-GPG-KEY-Rocky-{releasever}" },
  { group := "highavailability"
    name := "Rocky Linux {releasever} - HighAvailability"
    filename := "rocky-addons.repo"
    mirrorRepo := some "rocky/linux/{releasever}/HighAvailability/{arch}/os/"
    mirrorGpgkey := some "rocky/linux/RPM-GPG-KEY-Rocky-{releasever}"
    upstreamRepo := "https://dl.rockylinux.org/pub/rocky/{releasever}/HighAvailability/{arch}/os/"
    upstreamGpgkey := some "https://dl.rockylinux.org/pub/rocky/RPM-GPG-KEY-Rocky-{releasever}" },
  { group := "resilientstorage"
    name := "Rocky Linux {releasever} - ResilientStorage"
    filename := "rocky-addons.repo"
    mirrorRepo := some "rocky/linux/{releasever}/ResilientStorage/{arch}/os/"
    mirrorGpgkey := some "rocky/linux/RPM-GPG-KEY-Rocky-{releasever}"
    upstreamRepo := "https://dl.rockylinux.org/pub/rocky/{releasever}/ResilientStorage/{arch}/os/"
    upstreamGpgkey := some "https://dl.rockylinux.org/pub/rocky/RPM-GPG-KEY-Rocky-{releasever}" },
  { group := "nfv"
    name := "Rocky Linux {releasever} - NFV"
    filename := "rocky-addons.repo"
    mirrorRepo := some "rocky/linux/{releasever}/NFV/{arch}/os/"
    mirrorGpgkey := some "rocky/linux/RPM-GPG-KEY-Rocky-{releasever}"
    upstreamRepo := "https://dl.rockylinux.org/pub/rocky/{releasever}/NFV/{arch}/os/"
    upstreamGpgkey := some "https://dl.rockylinux.org/pub/rocky/RPM-GPG-KEY-Rocky-{releasever}" },
  { group := "rt"
    name := "Rocky Linux {releasever} - RT"
    filename := "rocky-addons.repo"
    mirrorRepo := some "rocky/linux/{releasever}/RT/{arch}/os/"
    mirrorGpgkey := some "rocky/linux/RPM-GPG-KEY-Rocky-{releasever}"
    upstreamRepo := "https://dl.rockylinux.org/pub/rocky/{releasever}/RT/{arch}/os/"
    upstreamGpgkey := some "https://dl.rockylinux.org/pub/rocky/RPM-GPG-KEY-Rocky-{releasever}" }]

/-- `repos/rocky-vault.conf`. -/
def rockyVaultRows : List ConfRow := [
  { group := "baseos"
    name := "Rocky Linux {releasever} [Vault] - BaseOS"
    filename := "rocky.repo"
    mirrorRepo := some "rocky/vault/{osversion}/BaseOS/{arch}/os/"
    mirrorGpgkey := some "rocky/vault/{osversion}/metadata/RPM-GPG-KEY-Rocky-{releasever}"
    upstreamRepo := "https://dl.rockylinux.org/vault/rocky/{osversion}/BaseOS/{arch}/os/"
    upstreamGpgkey := some "https://dl.rockylinux.org/pub/rocky/RPM-GPG-KEY-Rocky-{releasever}" },
  { group := "appstream"
    name := "Rocky Linux {releasever} [Vault] - AppStream"
    filename := "rocky.repo"
    mirrorRepo := some "rocky/vault/{osversion}/AppStream/{arch}/os/"
    mirrorGpgkey := some "rocky/vault/{osversion}/metadata/RPM-GPG-KEY-Rocky-{releasever}"
    upstreamRepo := "https://dl.rockylinux.org/vault/rocky/{osversion}/AppStream/{arch}/os/"
    upstreamGpgkey := some "https://dl.rockylinux.org/pub/rocky/RPM-GPG-KEY-Rocky-{releasever}" },
  { group := "crb"
    name := "Rocky Linux {releasever} [Vault] - CRB"
    filename := "rocky.repo"
    mirrorRepo := some "rocky/vault/{osversion}/CRB/{arch}/os/"
    mirrorGpgkey := some "rocky/vault/{osversion}/metadata/RPM-GPG-KEY-Rocky-{releasever}"
    upstreamRepo := "https://dl.rockylinux.org/vault/rocky/{osversion}/CRB/{arch}/os/"
    upstreamGpgkey := some "https://dl.rockylinux.org/pub/rocky/RPM-GPG-KEY-Rocky-{releasever}" },
  { group := "extras"
    name := "Rocky Linux {releasever} [Vault] - Extras"
    filename := "rocky-extras.repo"
    mirrorRepo := some "rocky/vault/{osversion}/extras/{arch}/os/"
    mirrorGpgkey := some "rocky/vault/{osversion}/metadata/RPM-GPG-KEY-Rocky-{releasever}"
    upstreamRepo := "https://dl.rockylinux.org/vault/rocky/{osversion}/extras/{arch}/os/"
    upstreamGpgkey := some "https://dl.rockylinux.org/pub/rocky/RPM-GPG-KEY-Rocky-{releasever}" },
  { group := "plus"
    name := "Rocky Linux {releasever} [Vault] - plus"
    filename := "rocky-extras.repo"
    mirrorRepo := some "rocky/vault/{osversion}/plus/{arch}/os/"
    mirrorGpgkey := some "rocky/vault/{osversion}/metadata/RPM-GPG-KEY-Rocky-{releasever}"
    upstreamRepo := "https://dl.rockylinux.org/vault/rocky/{osversion}/plus/{arch}/os/"
    upstreamGpgkey := some "https://dl.rockylinux.org/pub/rocky/RPM-GPG-KEY-Rocky-{releasever}" },
  { group := "devel"
    name := "Rocky Linux {releasever} [Vault] - Devel"
    filename := "rocky-devel.repo"
    mirrorRepo := some "rocky/vault/{osversion}/devel/{arch}/os/"
    mirrorGpgkey := some "rocky/vault/{osversion}/metadata/RPM-GPG-KEY-Rocky-{releasever}"
    upstreamRepo := "https://dl.rockylinux.org/vault/rocky/{osversion}/devel/{arch}/os/"
    upstreamGpgkey := some "https://dl.rockylinux.org/pub/rocky/RPM-GPG-KEY-Rocky-{releasever}" },
  { group := "highavailability"
    name := "Rocky Linux {releasever} [Vault] - HighAvailability"
    filename := "rocky-addons.repo"
    mirrorRepo := some "rocky/vault/{osversion}/HighAvailability/{arch}/os/"
    mirrorGpgkey := some "rocky/vault/{osversion}/metadata/RPM-GPG-KEY-Rocky-{releasever}"
    upstreamRepo := "https://dl.rockylinux.org/vault/rocky/{osversion}/HighAvailability/{arch}/os/"
    upstreamGpgkey := some "https://dl.rockylinux.org/pub/rocky/RPM-GPG-KEY-Rocky-{releasever}" },
  { group := "resilientstorage"
    name := "Rocky Linux {releasever} [Vault] - ResilientStorage"
    filename := "rocky-addons.repo"
    mirrorRepo := some "rocky/vault/{osversion}/ResilientStorage/{arch}/os/"
    mirrorGpgkey := some "rocky/vault/{osversion}/metadata/RPM-GPG-KEY-Rocky-{releasever}"
    upstreamRepo := "https://dl.rockylinux.org/vault/rocky/{osversion}/ResilientStorage/{arch}/os/"
    upstreamGpgkey := some "https://dl.rockylinux.org/pub/rocky/RPM-GPG-KEY-Rocky-{releasever}" },
  { group := "nfv"
    name := "Rocky Linux {releasever} [Vault] - NFV"
    filename := "rocky-addons.repo"
    mirrorRepo := some "rocky/vault/{osversion}/NFV/{arch}/os/"
    mirrorGpgkey := some "rocky/vault/{osversion}/metadata/RPM-GPG-KEY-Rocky-{releasever}"
    upstreamRepo := "https://dl.rockylinux.org/vault/rocky/{osversion}/NFV/{arch}/os/"
    upstreamGpgkey := some "https://dl.rockylinux.org/pub/rocky/RPM-GPG-KEY-Rocky-{releasever}" },
  { group := "rt"
    name := "Rocky Linux {releasever} [Vault] - RT"
    filename := "rocky-addons.repo"
    mirrorRepo := some "rocky/vault/{osversion}/RT/{arch}/os/"
    mirrorGpgkey := some "rocky/vault/{osversion}/metadata/RPM-GPG-KEY-Rocky-{releasever}"
    upstreamRepo := "https://dl.rockylinux.org/vault/rocky/{osversion}/RT/{arch}/os/"
    upstreamGpgkey := some "https://dl.rockylinux.org/pub/rocky/RPM-GPG-KEY-Rocky-{releasever}" }]

/-! ### All templates are valid -/

namespace RepoConfigParser

/-- A non-empty template that uses the placeholders only, without specifications. -/
structure GoodTemplate (fmt : String) : Prop where
  ne_empty : fmt ≠ ""
  plain : (Format.scan .text fmt.toList).all Format.Segment.plain
  valid : validTemplate (fun _ => none) fmt

/-- The placeholders with blank values, their names spelled out. -/
def blankArgs : Format.Args :=
  [(['r', 'e', 'l', 'e', 'a', 's', 'e', 'v', 'e', 'r'], ""),
    (['o', 's', 'v', 'e', 'r', 's', 'i', 'o', 'n'], ""), (['a', 'r', 'c', 'h'], ""),
    (['b', 'e', 'e', 'g', 'f', 's', 'V', 'e', 'r', 's', 'i', 'o', 'n'], ""),
    (['z', 'a', 'b', 'b', 'i', 'x', 'V', 'e', 'r', 's', 'i', 'o', 'n'], ""),
    (['x', 'c', 'a', 't', 'V', 'e', 'r', 's', 'i', 'o', 'n'], ""),
    (['o', 'h', 'p', 'c', 'V', 'e', 'r', 's', 'i', 'o', 'n'], "")]

/-- `GoodTemplate` on the characters. -/
def goodChars (l : List Char) : Bool :=
  !l.isEmpty && (Format.scan .text l).all Format.Segment.plain &&
    (Format.render (fun _ => none) blankArgs (some 0) (Format.scan .text l)).isOk

theorem fmtArgs_blank : fmtArgs ⟨"", "", "", "", "", "", ""⟩ = blankArgs := by
  simp [fmtArgs, blankArgs]

/-- The check runs on the characters, so that no literal has to be decoded. -/
theorem goodTemplate_ofList (l : List Char) (h : goodChars l) : GoodTemplate (String.ofList l) := by
  simp only [goodChars, Bool.and_eq_true, Bool.not_eq_true', List.isEmpty_eq_false_iff] at h
  refine ⟨by simpa using h.1.1, by rw [String.toList_ofList]; exact h.1.2, ?_⟩
  rw [validTemplate, interpolateVars, fmtArgs_blank, Format.format, Format.isOk_bind_pure,
    String.toList_ofList]
  exact h.2

theorem notDigit_ofList (l : List Char) (h : l.any Char.isDigit = false) :
    (String.ofList l).toList.any Char.isDigit = false := by
  rw [String.toList_ofList]
  exact h

/-- A group whose name has no digit and whose values are all good templates. -/
def Good (row : ConfRow) : Prop :=
  row.group.toList.any Char.isDigit = false ∧ GoodTemplate row.name ∧ GoodTemplate row.filename ∧
    (∀ s ∈ row.mirrorRepo, GoodTemplate s) ∧ (∀ s ∈ row.mirrorGpgkey, GoodTemplate s) ∧
      GoodTemplate row.upstreamRepo ∧ ∀ s ∈ row.upstreamGpgkey, GoodTemplate s

theorem good_repos : ∀ row ∈ reposRows, Good row := by
  simp only [reposRows, Good, List.forall_mem_cons, Option.mem_def, Option.some.injEq, forall_eq',
    reduceCtorEq, List.not_mem_nil, false_implies, implies_true, and_true, true_and]
  and_intros <;>
    first
      | exact goodTemplate_ofList _ (by decide +kernel)
      | exact notDigit_ofList _ (by decide +kernel)

theorem good_alma : ∀ row ∈ almaRows, Good row := by
  simp only [almaRows, Good, List.forall_mem_cons, Option.mem_def, Option.some.injEq, forall_eq',
    List.not_mem_nil, false_implies, implies_true, and_true]
  and_intros <;>
    first
      | exact goodTemplate_ofList _ (by decide +kernel)
      | exact notDigit_ofList _ (by decide +kernel)

theorem good_oracle : ∀ row ∈ oracleRows, Good row := by
  simp only [oracleRows, Good, List.forall_mem_cons, Option.mem_def, Option.some.injEq, forall_eq',
    reduceCtorEq, List.not_mem_nil, false_implies, implies_true, and_true, true_and]
  and_intros <;>
    first
      | exact goodTemplate_ofList _ (by decide +kernel)
      | exact notDigit_ofList _ (by decide +kernel)

theorem good_rhel : ∀ row ∈ rhelRows, Good row := by
  simp only [rhelRows, Good, List.forall_mem_cons, Option.mem_def, Option.some.injEq, forall_eq',
    List.not_mem_nil, false_implies, implies_true, and_true]
  and_intros <;>
    first
      | exact goodTemplate_ofList _ (by decide +kernel)
      | exact notDigit_ofList _ (by decide +kernel)

theorem good_rockyUpstream : ∀ row ∈ rockyUpstreamRows, Good row := by
  simp only [rockyUpstreamRows, Good, List.forall_mem_cons, Option.mem_def, Option.some.injEq, forall_eq',
    List.not_mem_nil, false_implies, implies_true, and_true]
  and_intros <;>
    first
      | exact goodTemplate_ofList _ (by decide +kernel)
      | exact notDigit_ofList _ (by decide +kernel)

theorem good_rockyVault : ∀ row ∈ rockyVaultRows, Good row := by
  simp only [rockyVaultRows, Good, List.forall_mem_cons, Option.mem_def, Option.some.injEq, forall_eq',
    List.not_mem_nil, false_implies, implies_true, and_true]
  and_intros <;>
    first
      | exact goodTemplate_ofList _ (by decide +kernel)
      | exact notDigit_ofList _ (by decide +kernel)

/-- A table whose groups are distinct and all good. -/
structure ConfTable where
  rows : List ConfRow
  nodup : (rows.map ConfRow.group).Nodup
  good : ∀ row ∈ rows, Good row

/-- What a group holds under each of its keys. -/
theorem get?_entries (row : ConfRow) :
    row.entries.get? "name" = some row.name ∧ row.entries.get? "filename" = some row.filename ∧
      row.entries.get? "mirror.repo" = row.mirrorRepo ∧
      row.entries.get? "mirror.gpgkey" = row.mirrorGpgkey ∧
      row.entries.get? "upstream.repo" = some row.upstreamRepo ∧
      row.entries.get? "upstream.gpgkey" = row.upstreamGpgkey := by
  obtain ⟨group, name, filename, mirrorRepo, mirrorGpgkey, upstreamRepo, upstreamGpgkey⟩ := row
  cases mirrorRepo <;> cases mirrorGpgkey <;> cases upstreamGpgkey <;>
    simp [ConfRow.entries, OrdMap.get?, lookup_cons_eq]

/-- The key file of a table. -/
def ConfTable.toKeyFile (table : ConfTable) : KeyFile where
  groups :=
    { entries := table.rows.map fun row => (row.group, row.entries)
      nodup := by simpa [Function.comp_def] using table.nodup }

def reposConf : ConfTable := ⟨reposRows, by simp [reposRows], good_repos⟩

def almaConf : ConfTable := ⟨almaRows, by simp [almaRows], good_alma⟩

def oracleConf : ConfTable := ⟨oracleRows, by simp [oracleRows], good_oracle⟩

def rhelConf : ConfTable := ⟨rhelRows, by simp [rhelRows], good_rhel⟩

def rockyUpstreamConf : ConfTable :=
  ⟨rockyUpstreamRows, by simp [rockyUpstreamRows], good_rockyUpstream⟩

def rockyVaultConf : ConfTable := ⟨rockyVaultRows, by simp [rockyVaultRows], good_rockyVault⟩

variable {specs : List Char → Option (String → String)} (table : ConfTable)

theorem mem_getGroups_toKeyFile (repoGroup : String) :
    repoGroup ∈ table.toKeyFile.getGroups ↔ ∃ row ∈ table.rows, row.group = repoGroup := by
  simp [KeyFile.getGroups, ConfTable.toKeyFile, OrdMap.keys]

theorem value?_toKeyFile {row : ConfRow} (h : row ∈ table.rows) (key : String) :
    table.toKeyFile.value? row.group key = row.entries.get? key := by
  have hrow : table.toKeyFile.groups.get? row.group = some row.entries :=
    OrdMap.get?_of_mem_entries (List.mem_map_of_mem h)
  rw [KeyFile.value?, hrow, Option.bind_some]

theorem validTemplate_of_good {fmt : String} (h : GoodTemplate fmt) : validTemplate specs fmt := by
  have hplain := Format.format_of_plain specs (fun _ => none)
    (fmtArgs ⟨"", "", "", "", "", "", ""⟩) h.plain
  rw [validTemplate, interpolateVars, hplain]
  exact h.valid

/-- Every group of a table is accepted, whatever the variables hold. -/
theorem wellFormed_toKeyFile {repoGroup : String} (h : repoGroup ∈ table.toKeyFile.getGroups) :
    wellFormed specs table.toKeyFile repoGroup := by
  obtain ⟨row, hrow, rfl⟩ := (mem_getGroups_toKeyFile table repoGroup).mp h
  obtain ⟨-, hname, hfilename, hmr, hmg, hup, hug⟩ := table.good row hrow
  have hopt : ∀ o : Option String, (∀ s ∈ o, GoodTemplate s) → o.all (validTemplate specs) := by
    intro o ho
    exact (Option.all_eq_true _ _).mpr fun s hs => validTemplate_of_good (ho s hs)
  obtain ⟨h1, h2, h3, h4, h5, h6⟩ := get?_entries row
  simp [wellFormed, value?_toKeyFile table hrow, h1, h2, h3, h4, h5, h6, hname.ne_empty,
    hfilename.ne_empty, hup.ne_empty, validTemplate_of_good hname, validTemplate_of_good hup,
    hopt _ hmr, hopt _ hmg, hopt _ hug]

/-- No shipped identifier contains a digit. -/
theorem noDigit_toKeyFile {repoGroup : String} (h : repoGroup ∈ table.toKeyFile.getGroups) :
    repoGroup.toList.any Char.isDigit = false := by
  obtain ⟨row, hrow, rfl⟩ := (mem_getGroups_toKeyFile table repoGroup).mp h
  exact (table.good row hrow).1

/-- Parsing a table into an empty conf file succeeds, and finds its groups. -/
theorem parseGroups_toKeyFile (specs : List Char → Option (String → String)) (vars : RepoConfigVars) :
    ∃ conf, parseGroups specs table.toKeyFile vars {} table.toKeyFile.getGroups = .ok conf ∧
      ∀ repoid, (conf.find repoid).isSome ↔ repoid ∈ table.toKeyFile.getGroups := by
  obtain ⟨conf, hconf⟩ := (parseGroups_exists_iff vars
    table.toKeyFile.getGroups {}).mpr fun _ hg => wellFormed_toKeyFile table hg
  exact ⟨conf, hconf, parseGroups_find_iff hconf⟩

end RepoConfigParser

end Cloyster
