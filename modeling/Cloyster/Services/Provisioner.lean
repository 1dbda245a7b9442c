import Cloyster.Services.OSService

/-! What the provisioner does besides naming things: it patches itself, makes the image of the
compute nodes unless there is one, and registers the nodes, sets their image and restarts them.
The commands whose result counts throw when they fail. -/

namespace Cloyster.Engine

open Lib Models Services

variable (site : Site)

/-! ### A repository behind the web server -/

/-- The names in a path. -/
def pathOf (text : String) : Path :=
  ((text.toList.splitOn '/').map String.ofList).filter (· ≠ "")

structure HTTPRepo where
  directory : String
  url : String

def confDir : Path := ["etc", "httpd", "conf.d"]

def createHTTPRepo (repoName : String) : EngineM HTTPRepo := do
  let confPath := confDir ++ pathOf s!"{repoName}.conf"
  let repoFolder := s!"/var/www/html/repos/{repoName}"
  let repo : HTTPRepo := ⟨repoFolder, s!"http://localhost/repos/{repoName}"⟩
  let s ← get
  if s.fs.exists confPath then return repo
  makeDirectory site ["var", "www", "html", "repos"]
  makeDirectory site (pathOf repoFolder)
  onFs (installFile site.opts.toOptions confPath (s!"<Directory \"{repoFolder}\">\n" ++
    "Options +Indexes +FollowSymLinks\nAllowOverride None\nRequire all granted\n" ++
    "IndexOptions FancyIndexing VersionSort NameWidth=* HTMLTable Charset=UTF-8\n" ++
    "</Directory>\n"))
  checkCommand site "apachectl configtest"
  checkCommand site "systemctl restart httpd"
  return repo

namespace XCAT

open Models.XCAT

/-- A member's constructor. -/
def construct : EngineM Unit := do
  onImage (set ({} : Stateless))
  onName (generateOSImageName site.cluster.toCluster .Netboot .Compute)

def installPackages : EngineM Unit := do
  let _ ← ELOSService.install site "initscripts"
  let _ ← ELOSService.install site "xCAT"

def patchInstall : EngineM Unit := do
  let code ← executeCommand site ("grep -q \"extensions usr_cert\" " ++
    "/opt/xcat/share/xcat/scripts/setup-local-client.sh")
  if code = 0 then
    command site ("sed -i \"s/-extensions usr_cert //g\" " ++
      "/opt/xcat/share/xcat/scripts/setup-local-client.sh")
    command site ("sed -i \"s/-extensions server //g\" " ++
      "/opt/xcat/share/xcat/scripts/setup-server-cert.sh")
    command site "xcatconfig -f"

def setDHCPInterfaces (interface : String) : EngineM Unit :=
  checkCommand site s!"chdef -t site dhcpinterfaces=\"xcatmn|{interface}\""

def setDomain (domain : String) : EngineM Unit :=
  checkCommand site s!"chdef -t site domain={domain}"

/-- `getHeadnode().getConnection(profile)`. -/
def headnodeConnection (profile : Network.Profile) : EngineM Connection :=
  plain (site.cluster.getConnection site.cluster.headnode profile)

def headnodeInterface (profile : Network.Profile) : EngineM String := do
  let connection ← headnodeConnection site profile
  plain (optionValue connection.interface)

def headnodeAddress (profile : Network.Profile) : EngineM String := do
  let connection ← headnodeConnection site profile
  return site.env.text.toString connection.address

def setup : EngineM Unit := do
  setDHCPInterfaces site (← headnodeInterface site .Management)
  setDomain site site.cluster.getDomainName

/-! ### The image -/

def imageExists (image : String) : EngineM Bool := do
  if site.opts.dryRun then return false
  if site.opts.shouldForce "genimage" then command site s!"rmdef -t osimage -o {image}"
  let code ← executeCommand site s!"lsdef -t osimage {image}"
  return code = 0

def copycds (diskImage : String) : EngineM Unit := checkCommand site s!"copycds {diskImage}"

/-- The name of the image goes into the command. -/
def onOSImage (f : String → EngineM Unit) : EngineM Unit := do
  let s ← get
  f s.image.osimage

def genimage : EngineM Unit := onOSImage fun image => checkCommand site s!"genimage {image}"

def packimage : EngineM Unit := onOSImage fun image => checkCommand site s!"packimage {image}"

def nodeset (nodes : String) : EngineM Unit :=
  onOSImage fun image => checkCommand site s!"nodeset {nodes} osimage={image}"

def netboot : Path := ["install", "custom", "netboot"]

def createDirectoryTree : EngineM Unit := makeDirectory site netboot

def addPackages (packages : List String) : EngineM Unit :=
  onImage (modify fun image => { image with otherpkgs := image.otherpkgs ++ packages })

def addPostinstall (entry : String) : EngineM Unit :=
  onImage (modify fun image => { image with postinstall := image.postinstall ++ [entry] })

def addSynclist (entry : String) : EngineM Unit :=
  onImage (modify fun image => { image with synclists := image.synclists ++ [entry] })

def configureSELinux : EngineM Unit :=
  addPostinstall ("echo \"SELINUX=disabled\nSELINUXTYPE=targeted\" > " ++
    "$IMG_ROOTIMGDIR/etc/selinux/config\n\n")

def configureOpenHPC : EngineM Unit := do
  addPackages ["ohpc-base-compute", "lmod-ohpc", "lua"]
  addSynclist ("/etc/passwd -> /etc/passwd\n" ++ "/etc/group -> /etc/group\n" ++
    "/etc/shadow -> /etc/shadow\n")

def configureTimeService : EngineM Unit := do
  addPackages ["chrony"]
  let address ← headnodeAddress site .Management
  addPostinstall s!"echo \"server {address} iburst\" >> $IMG_ROOTIMGDIR/etc/chrony.conf\n\n"

/-- A dry run cannot ask for the kernel. -/
def kernelVersion : EngineM String :=
  if site.opts.dryRun then return "5.14.0-503.33.1.el9_5" else ELOSService.getKernelInstalled site

def addOtherpkgdir (url : String) : EngineM Unit :=
  onOSImage fun image =>
    checkCommand site s!"bash -c \"chdef -t osimage {image} --plus otherpkgdir={url}\""

/-- The repositories are not there in a dry run. -/
def addDoca : EngineM Unit := do
  if site.opts.dryRun then return
  let repo ← findRepo site "doca"
  let docaUrl ← plain (optionValue repo.baseurl)
  addOtherpkgdir site docaUrl

def configureMellanox : EngineM Unit := do
  -- the architecture of the first node is read and not used
  let _ ← plain site.cluster.firstNode
  addPackages ["mlnx-ofa_kernel", "doca-ofed"]
  let kernelVersion ← kernelVersion site
  let localRepo ← createHTTPRepo site s!"doca-kernel-{kernelVersion}"
  checkCommand site (s!"bash -c \"cp -v /usr/share/doca-host-*/Modules/{kernelVersion}/*.rpm " ++
    s!"{localRepo.directory}\"")
  checkCommand site s!"createrepo {localRepo.directory}"
  addDoca site
  addOtherpkgdir site localRepo.url

def configureInfiniband : EngineM Unit :=
  match site.cluster.ofed with
  | none => pure ()
  | some ofed =>
    match ofed.kind with
    | .Inbox => addPackages ["@infiniband"]
    | .Mellanox => configureMellanox site
    | .Oracle => throw (.uncaught ⟨.logicError, "Oracle RDMA release is not yet supported"⟩)

def configureSLURM : EngineM Unit := do
  addPackages ["ohpc-slurm-client"]
  let address ← headnodeAddress site .Management
  addPostinstall (s!"echo SLURMD_OPTIONS=\\\"--conf-server {address}\\\" > " ++
    "$IMG_ROOTIMGDIR/etc/sysconfig/slurmd\n\n")
  addPostinstall ("echo \"# Block queue evasion\" >> $IMG_ROOTIMGDIR/etc/pam.d/sshd\n" ++
    "echo \"account    required     pam_slurm.so\" >> $IMG_ROOTIMGDIR/etc/pam.d/sshd\n\n")
  addPostinstall ("chroot $IMG_ROOTIMGDIR systemctl enable munge\n" ++
    "chroot $IMG_ROOTIMGDIR systemctl enable slurmd\n\n")
  addSynclist "/etc/munge/munge.key -> /etc/munge/munge.key\n\n"

/-- Each entry is added unless it is there. -/
def addEntries (name : String) (entries : List String) : EngineM Unit :=
  entries.forM fun entry => addString site (netboot.child name) entry

def generateOtherPkgListFile : EngineM Unit := do
  remove site (netboot.child "compute.otherpkglist")
  let s ← get
  addEntries site "compute.otherpkglist" ["\n".intercalate s.image.otherpkgs ++ "\n"]

def memlock (kind : String) : String :=
  "perl -pi -e 's/# End of file/\\* " ++ kind ++ " memlock unlimited\\n$&/s' " ++
    "$IMG_ROOTIMGDIR/etc/security/limits.conf\n"

/-- A dry run leaves before the permissions are set. -/
def generatePostinstallFile : EngineM Unit := do
  remove site (netboot.child "compute.postinstall")
  addPostinstall (memlock "soft" ++ memlock "hard" ++ "\n")
  addPostinstall "systemctl disable firewalld\n"
  let s ← get
  addEntries site "compute.postinstall" s.image.postinstall
  if site.opts.dryRun then return
  setPermissions (netboot.child "compute.postinstall")

def generateSynclistsFile : EngineM Unit := do
  remove site (netboot.child "compute.synclists")
  addEntries site "compute.synclists" ["/etc/passwd -> /etc/passwd\n" ++
    "/etc/group -> /etc/group\n" ++ "/etc/shadow -> /etc/shadow\n" ++
    "/etc/munge/munge.key -> /etc/munge/munge.key\n"]

def addToOSImage (key value : String) : EngineM Unit :=
  onOSImage fun image => command site s!"chdef -t osimage {image} --plus {key}={value}"

def addRepos : EngineM Unit := do
  if site.opts.dryRun then return
  let repos ← onFs (Cloyster.XCAT.getxCATOSImageRepos site.env.codec site.env.vault
    site.cluster.headnode.os)
  addToOSImage site "otherpkgdir" (",".intercalate repos)

def configureOSImageDefinition : EngineM Unit := do
  addToOSImage site "otherpkglist" "/install/custom/netboot/compute.otherpkglist"
  addToOSImage site "postinstall" "/install/custom/netboot/compute.postinstall"
  addToOSImage site "synclists" "/install/custom/netboot/compute.synclists"
  addRepos site

/-- The permissions of munge, whose files are in the image of a cluster with SLURM. -/
def fixMunge (chroot : String) : EngineM Unit := do
  makeDirectory site ((pathOf chroot).child "etc")
  command site s!"cp -f /etc/passwd /etc/group /etc/shadow {chroot}/etc"
  command site (s!"mkdir -p {chroot}/var/lib/munge {chroot}/var/log/munge " ++
    s!"{chroot}/etc/munge {chroot}/run/munge")
  ["var/lib", "var/log", "etc", "run"].forM fun dir =>
    command site s!"chown munge:munge {chroot}/{dir}/munge"

def customizeImage (customizations : List ScriptBuilder) : EngineM Unit := do
  match ← plain (optionValue site.cluster.queue) with
  | .SLURM _ =>
    let s ← get
    fixMunge site s.image.chroot
  | .PBS _ => pure ()
  customizations.forM fun script => do
    let _ ← run site script

/-! ### The links for version 9 -/

def share : String := "/opt/xcat/share/xcat/"

def link (target name : String) : String := s!"ln -sf {share}{target} {share}{name}"

/-- Kinds of nodes and files of theirs. -/
def netbootFiles : List (String × String) :=
  [("compute", "exlist"), ("compute", "pkglist"), ("compute", "postinstall"),
    ("service", "exlist"), ("service", "otherpkgs.pkglist"), ("service", "pkglist"),
    ("service", "postinstall")]

def installFiles : List (String × String) :=
  [("compute", "pkglist"), ("compute", "tmpl"), ("service", "pkglist"), ("service", "tmpl")]

def links (folder version : String) : List String :=
  (netbootFiles.map fun (kind, file) => link s!"netboot/rh/{kind}.rhels9.x86_64.{file}"
    s!"netboot/{folder}/{kind}.{version}.x86_64.{file}") ++
  (installFiles.map fun (kind, file) => link s!"install/rh/{kind}.rhels9.{file}"
    s!"install/{folder}/{kind}.{version}.{file}") ++
  [link "install/rh/service.rhels9.x86_64.otherpkgs.pkglist"
    s!"install/{folder}/service.{version}.x86_64.otherpkgs.pkglist"]

/-- The commands with commas between them. -/
def createSymlinkCommand (folder version : String) : String := ",".intercalate (links folder version)

def symlinkCommands : List String :=
  [("rocky", "rocky9"), ("ol", "ol9"), ("alma", "alma9")].flatMap fun (folder, version) =>
    ((createSymlinkCommand folder version).toList.splitOn ',').map String.ofList

def configureEL9 : EngineM Unit := symlinkCommands.forM fun cmd => command site cmd

/-! ### Making the image -/

def getImageInstallArgs (imageType : ImageType) (nodeType : NodeType) :
    EngineM ImageInstallArgs := do
  onName (generateOSImageName site.cluster.toCluster imageType nodeType)
  onName (generateOSImagePath site.cluster.toCluster imageType nodeType)
  let s ← get
  return {
    imageName := s.image.osimage
    rootfs := s.image.chroot
    postinstall := "/install/custom/netboot/compute.postinstall"
    pkglist := "/install/custom/netboot/compute.otherpkglist" }

/-- Either the old image is cleaned up or the medium is copied. -/
def prepareImage : EngineM Unit := do
  let s ← get
  if site.opts.shouldSkip "copycds" then
    command site (s!"bash -c \"rm -rf {s.image.chroot} && " ++
      "echo > /install/custom/netboot/compute.otherpkglist && " ++
      "echo > /install/custom/netboot/compute.postinstall\"")
  else copycds site site.cluster.diskImage.path

/-- What goes into the image, and the files that tell it. -/
def configureImage : EngineM Unit := do
  createDirectoryTree site
  configureSELinux
  configureOpenHPC
  configureTimeService site
  configureInfiniband site
  configureSLURM site
  generateOtherPkgListFile site
  generatePostinstallFile site
  generateSynclistsFile site
  configureOSImageDefinition site

def buildImage (imageType : ImageType) (nodeType : NodeType)
    (customizations : List ScriptBuilder) : EngineM Unit := do
  prepareImage site
  onName (generateOSImagePath site.cluster.toCluster imageType nodeType)
  configureImage site
  customizeImage site customizations
  genimage site
  packimage site

/-- An image that exists is made again only without the copy of the medium. -/
def createImage (imageType : ImageType) (nodeType : NodeType)
    (customizations : List ScriptBuilder) : EngineM Unit := do
  configureEL9 site
  onName (generateOSImageName site.cluster.toCluster imageType nodeType)
  let s ← get
  let imageExists ← imageExists site s.image.osimage
  if !imageExists || site.opts.shouldSkip "copycds" then
    buildImage site imageType nodeType customizations

/-! ### The nodes -/

def addNode (node : Models.Node) : EngineM Unit := do
  command site (← plain (Models.XCAT.addNode site.cluster.toCluster site.env.text node))

def setNodesImage : EngineM Unit := nodeset site "compute"

def addNodes : EngineM Unit := do
  site.cluster.nodes.forM fun node => addNode site node
  command site "makehosts"
  command site "makedhcp -n"
  command site "makedns -n"
  command site "makegocons"
  setNodesImage site

def setNodesBoot : EngineM Unit := command site "rsetboot compute net"

def resetNodes : EngineM Unit := command site "rpower compute reset"

end XCAT

end Cloyster.Engine
