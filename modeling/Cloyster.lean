import Cloyster.Services.KeyFile
import Cloyster.Functions
import Cloyster.DryRun
import Cloyster.Lib.Format
import Cloyster.Models.OS
import Cloyster.Services.Repos.Config
import Cloyster.Services.Repos.Shipped
import Cloyster.Lib.KeyFileText
import Cloyster.Services.Repos.Names
import Cloyster.Services.Repos.Mirror
import Cloyster.Services.Repos.Generator
import Cloyster.Services.Repos.Restart
import Cloyster.Services.Repos.Cuts
import Cloyster.Services.Repos.Manager
import Cloyster.Move
import Cloyster.Services.Repos.RoundTrip
import Cloyster.Services.Repos.Listing
import Cloyster.Services.Repos.Outside
import Cloyster.Models.Network
import Cloyster.Models.Connection
import Cloyster.Models.Setters
import Cloyster.Models.AnswerFile
import Cloyster.Models.Nodes
import Cloyster.Models.Load
import Cloyster.Models.Cluster
import Cloyster.Models.Fill
import Cloyster.Models.Networks
import Cloyster.Models.Filled
import Cloyster.Models.Profiles
import Cloyster.Models.Identity
import Cloyster.Services.Registration
import Cloyster.Models.Dump
import Cloyster.Models.DumpData
import Cloyster.Services.Repos.Initialise
import Cloyster.Services.Repos.Rows
import Cloyster.Lib.PrefixMask
import Cloyster.Models.Mask
import Cloyster.Lib.Numerals
import Cloyster.Models.Version
import Cloyster.Models.Thrown
import Cloyster.Models.Numbers
import Cloyster.Services.Repos.Assembler
import Cloyster.Lib.Lines
import Cloyster.AddString
import Cloyster.MailSystem.Postfix
import Cloyster.Lib.Regex
import Cloyster.Models.Hostnames
import Cloyster.Presenter.HostId
import Cloyster.Lib.Simulation
import Cloyster.Services.Repos.Copies
import Cloyster.Services.Repos.Failed
import Cloyster.Services.Repos.Batch
import Cloyster.Services.Repos.Disable
import Cloyster.Lib.Tokens
import Cloyster.Models.NetworkSection
import Cloyster.Models.Numbering
import Cloyster.Models.DiskImage
import Cloyster.Models.Reload
import Cloyster.Presenter.Network
import Cloyster.MailSystem.MainFile
import Cloyster.MailSystem.Credentials
import Cloyster.Lib.Ini
import Cloyster.ConfigurationFile
import Cloyster.Lib.InputStream
import Cloyster.Services.Runner
import Cloyster.Services.Script
import Cloyster.Lib.Loop
import Cloyster.Lib.Pieces
import Cloyster.Lib.Classes
import Cloyster.Lib.Guarded
import Cloyster.Lib.Grouping
import Cloyster.FindAndReplace
import Cloyster.Services.Checksum
import Cloyster.Models.MAC
import Cloyster.NFS
import Cloyster.Services.Repos.Filing
import Cloyster.View.Newt
import Cloyster.Services.Timezone
import Cloyster.Presenter.Time
import Cloyster.Models.Servers
import Cloyster.Models.Topology
import Cloyster.Services.Options
import Cloyster.Services.ImageRepos
import Cloyster.Lib.Registry
import Cloyster.Services.Init
import Cloyster.Session
import Cloyster.Main
import Cloyster.Lib.Moves
import Cloyster.Lib.EventLog
import Cloyster.Lib.Stages
import Cloyster.Lib.Total
import Cloyster.Lib.Milestones
import Cloyster.Lib.Work
import Cloyster.Lib.AppendOnce
import Cloyster.Lib.Directives
import Cloyster.Contents
import Cloyster.Services.Repos.Confined
import Cloyster.Engine
import Cloyster.Engine.Steps
import Cloyster.Engine.Ordered
import Cloyster.Engine.Returns
import Cloyster.Services.OSService
import Cloyster.Models.SLURM
import Cloyster.MailSystem.Setup
import Cloyster.Services.Provisioner
import Cloyster.Services.Provisioner.Steps
import Cloyster.Services.Provisioner.Order
import Cloyster.Services.Provisioner.Nodes
import Cloyster.Services.Shell
import Cloyster.Services.Shell.Tasks
import Cloyster.Services.Shell.Furnished
import Cloyster.Services.Shell.Returns
import Cloyster.Services.Shell.Image
import Cloyster.Services.Shell.Runs
import Cloyster.Services.Shell.Order
import Cloyster.Services.Shell.Edits
import Cloyster.Services.Shell.Queue
import Cloyster.Models.Release
import Cloyster.Services.Shell.Networks
